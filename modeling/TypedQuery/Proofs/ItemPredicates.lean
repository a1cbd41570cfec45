import TypedQuery.Proofs.NullFreeRecords
import TypedQuery.Proofs.PropertyPaths
import TypedQuery.Proofs.TrackedExpressions

/-!
# Predicates on items

A predicate on the items of a collection is bound on a variable, or on the record of a clause of its own. The
record of a clause is never guarded, so that its properties have their types without null, and fail where the item
is null; a variable is guarded. Apart from that, both give the predicate the same value.

* `ItemPath`, `ItemPredicate`: chains of declared properties of an item, and predicates on them.
* `ItemPredicate.isEven`: the comparisons that do not depend on a type with null.
* `Context.Itemwise`: a variable and a current record that stand for the same item.
* `ItemPath.bindWithin_relates`, **`ItemPredicate.bindWithin_relates`**: what is bound in both ways.
-/

namespace TypedQuery

open BindM (Relates Keeps)

/-! ## Syntax -/

/-- An item, or a property of what a chain of properties leads to from it. -/
inductive ItemPath where
  | item
  | property (source : ItemPath) (name : String) (kind : PropertyKind)

namespace ItemPath

/-- The chain from a variable on. -/
def toNode (v : RangeVariable) : ItemPath → Node
  | .item => .rangeVariable v
  | .property source name kind => .property (source.toNode v) name kind

/-- The declared type at the chain, for items of a record type. -/
def type? (s : Schema) (record : String) : ItemPath → Option HostType
  | .item => some (.record record)
  | .property source name _ => (source.type? s record).bind (s.memberType? · name)

end ItemPath

/-- The type as which a member of a declared type is read. -/
def HostType.common (t : HostType) : HostType :=
  match t.nonNullable.widened? with
  | some u => u.nullableLike t
  | none => t

/-- Predicates on an item: its properties, literals, comparisons and logic. -/
inductive ItemPredicate where
  | path (p : ItemPath)
  | constant (literal : Literal) (type : Option LogicalType)
  | compare (op : QueryOp) (hop : op.isComparison = true) (left right : ItemPredicate)
  | logic (op : QueryOp) (hop : op.isLogical = true) (left right : ItemPredicate)
  | not (operand : ItemPredicate)

namespace ItemPredicate

/-- The predicate on a variable. -/
def toNode (v : RangeVariable) : ItemPredicate → Node
  | .path p => p.toNode v
  | .constant l type => .constant l type
  | .compare op _ left right | .logic op _ left right => .binary op (left.toNode v) (right.toNode v)
  | .not operand => .unary .not (operand.toNode v)

/-- Whether there is an `and` or `or` in the predicate. -/
def hasConnective : ItemPredicate → Bool
  | .path _ | .constant .. => false
  | .compare _ _ left right => left.hasConnective || right.hasConnective
  | .logic .. => true
  | .not operand => operand.hasConnective

/-- Whether the predicate is the literal null. -/
def isNull : ItemPredicate → Bool
  | .constant .null _ => true
  | _ => false

section Types

variable (s : Schema) (record : String)

/-- The enumeration of which an operand has a value. -/
def enum? : ItemPredicate → Option EnumType
  | .path p => (p.type? s record).bind HostType.asEnum?
  | .constant (.enum name _) _ => (s.hostType? (.enum name false)).bind HostType.asEnum?
  | .constant .null type => (type.bind s.hostType?).bind HostType.asEnum?
  | _ => none

/-- The type of a property of the item itself, if it has no null: the properties whose types depend on whether the
item may be null. -/
def plainType? : ItemPredicate → Option HostType
  | .path (.property .item name _) =>
    ((s.memberType? (.record record) name).map HostType.common).filter HostType.isValueType
  | _ => none

/-- Whether an operand is compared in the same way if its type has null added. It is not if it is converted to
integers of 64 bits without sign, as numbers of enumerations are, nor if it is widened next to the literal null. -/
def isEvenNextTo (enum? : Option EnumType) (operand other : ItemPredicate) : Bool :=
  ((operand.plainType? s record).bind (Bind.comparedAs? enum?)).all fun t =>
    t.nonNullable ≠ .int .uint64 && (!other.isNull || t.isSteady)

/-- Whether this is so for all operands of comparisons in the predicate. -/
def isEven : ItemPredicate → Bool
  | .path _ | .constant .. => true
  | .compare _ _ left right =>
    let enum? := (left.enum? s record).orElse fun _ => right.enum? s record
    left.isEven && right.isEven && left.isEvenNextTo s record enum? right && right.isEvenNextTo s record enum? left
  | .logic _ _ left right => left.isEven && right.isEven
  | .not operand => operand.isEven

end Types

end ItemPredicate

/-! ## Types of members -/

namespace HostType

variable {t u : HostType}

theorem asEnum?_common (t : HostType) : t.common.asEnum? = t.asEnum? := by
  unfold common
  split
  next u hu =>
    unfold asEnum?
    rw [nonNullable_nullableLike]
    unfold widened? at hu
    split at hu
    case h_7 => cases hu
    all_goals
      rename_i ht
      cases hu
      rw [ht]
      rfl
  next => rfl

theorem asEnum?_toNullable (t : HostType) : t.toNullable.asEnum? = t.asEnum? := by
  unfold asEnum?
  rw [nonNullable_toNullable]

/-- Only a record type is read as one. -/
theorem eq_record_of_common {record : String} (h : t.common.toNullable = .record record) : t = .record record := by
  have hcommon : t.common = .record record := by
    generalize t.common = c at h
    cases c <;> first | exact h | cases h
  unfold common at hcommon
  split at hcommon
  next u hu =>
    have hplain := (widened?_eq_some hu).1
    rw [hcommon] at hplain
    cases hplain
  next => exact hcommon

theorem Lifts.recordName? (h : t.Lifts u) : t.recordName? = u.recordName? := by
  rcases h with rfl | rfl
  · rfl
  · cases u <;> rfl

end HostType

theorem Expr.type_widenPrimitive (e : Expr) : e.widenPrimitive.type = e.type.common := by
  unfold widenPrimitive HostType.common
  cases e.type.nonNullable.widened? <;> rfl

/-! ## Scopes -/

/-- An environment in which a parameter is an item of a record type, or null. -/
def Env.HasItem (s : Schema) (id : Nat) (record : String) (env : Env) : Prop :=
  ∃ v, env.lookup id = some v ∧ s.admits (.record record) v = true

/-- An environment in which a parameter is not null. -/
def Env.HasRecord (id : Nat) (env : Env) : Prop := ∃ v, env.lookup id = some v ∧ v.isNull = false

/-- Two contexts over items of a record type: in the first the item is a variable, and in the second it is the
record of the clause. -/
structure Context.Itemwise (d₁ d₂ : Context) (x it : RangeVariable) (id : Nat) (record : String) : Prop where
  schema : d₁.schema = d₂.schema
  settings : d₁.settings = d₂.settings
  propagation : d₂.settings.nullPropagation = true
  flattenedLeft : d₁.flattened = []
  flattenedRight : d₂.flattened = []
  sourceLeft : d₁.flatteningSource = none
  sourceRight : d₂.flatteningSource = none
  left : ∃ p, d₁.resolve x = .ok (.param p) ∧ p ≠ d₁.current ∧ p.id = id ∧ p.type = .record record
  right : d₂.resolve it = .ok (.param d₂.current)
  currentId : d₂.current.id = id
  currentType : d₂.current.type = .record record

/-! ## Paths -/

/-- Two expressions for what is at a place of an item, of a declared type. Where the item is null, the first is
null; the second is the item, or fails. -/
structure Expr.Locates [External] (d₁ d₂ : Context) (id : Nat) (record : String) (t : HostType)
    (e₁ e₂ : Expr) : Prop where
  lifts : e₁.type.Lifts e₂.type
  type : e₂.type = t.common ∨ e₂.type = t.common.toNullable
  constLeft : e₁.constValue? = none
  constRight : e₂.constValue? = none
  currentLeft : d₁.isCurrent e₁ = false
  currentRight : d₂.isCurrent e₂ = true → e₂ = .param d₂.current
  atRecord : ∀ {env v}, env.lookup id = some v → d₂.schema.admits (.record record) v = true → v.isNull = false →
    ∃ w, e₁.eval env = .ok w ∧ e₂.eval env = .ok w ∧ d₂.schema.admits e₂.type w = true
  atNull : ∀ {env : Env}, env.lookup id = some .null → e₁.eval env = .ok .null ∧
    (e₂ = .param d₂.current ∨ ∃ err, e₂.eval env = .error err)

namespace Expr

variable {d₁ d₂ : Context} {x it : RangeVariable} {id : Nat} {record : String} {t : HostType} {e₁ e₂ : Expr}

theorem plain_of_constValue? {e : Expr} (h : e.constValue? = none) :
    e.isNullConst = false ∧ e.isNonNullConst = false := by
  cases e <;> first | exact ⟨rfl, rfl⟩ | cases h

theorem eval_param_of_lookup [External] {p : Param} {env : Env} {v : Value} (h : env.lookup p.id = some v) :
    (Expr.param p).eval env = .ok v := by
  rw [eval, h]
  rfl

/-- The item itself. -/
theorem locates_item [External] (h : d₁.Itemwise d₂ x it id record) {p : Param} (hcurrent : p ≠ d₁.current)
    (hid : p.id = id) (htype : p.type = .record record) :
    Locates d₁ d₂ id record (.record record) (.param p) (.param d₂.current) where
  lifts := by
    rw [Expr.type, Expr.type, htype, h.currentType]
    exact .refl _
  type := .inl h.currentType
  constLeft := rfl
  constRight := rfl
  currentLeft := decide_eq_false hcurrent
  currentRight _ := rfl
  atRecord hlookup hadmits _ := by
    refine ⟨_, eval_param_of_lookup (hid ▸ hlookup), eval_param_of_lookup (h.currentId ▸ hlookup), ?_⟩
    rwa [Expr.type, h.currentType]
  atNull hlookup := ⟨eval_param_of_lookup (hid ▸ hlookup), .inl rfl⟩

/-- Expressions for a place are values of the same kind, as far as both have one. -/
theorem Locates.tracks [External] (h : Locates d₁ d₂ id record t e₁ e₂)
    (hitem : d₁.Itemwise d₂ x it id record)
    {strict : Prop} : Tracks (Env.HasItem d₂.schema id record) (Env.HasRecord id) strict e₁ e₂ := by
  have hleft := (plain_of_constValue? h.constLeft).1
  have hright := (plain_of_constValue? h.constRight).1
  refine ⟨h.lifts, by rw [hleft, hright], by simp [hright], fun env ⟨v, hv, hadmits⟩ => ?_⟩
  cases hnull : v.isNull with
  | false =>
    obtain ⟨w, hw₁, hw₂, hw⟩ := h.atRecord hv hadmits hnull
    rw [hw₁, hw₂]
    exact .ok (.of_admits hw)
  | true =>
    obtain rfl := Value.eq_null hnull
    obtain ⟨hleft, hright⟩ := h.atNull hv
    rw [hleft]
    refine ⟨fun hu hsurely => ?_, fun _ _ _ => ⟨_, rfl⟩⟩
    cases hu
    obtain ⟨u, hu⟩ := hsurely.resolve_left fun ⟨w, hw, hnull⟩ => by
      cases hv.symm.trans hw
      cases hnull
    rcases hright with rfl | ⟨err, herr⟩
    · refine ⟨eval_param_of_lookup (hitem.currentId ▸ hv), .of_null ?_⟩
      rw [Expr.type, hitem.currentType]
      rfl
    · cases hu.symm.trans herr

end Expr

/-- A member is of a record type. -/
theorem Schema.exists_record_of_member {s : Schema} {t : HostType} {name : String} {m : Member}
    (h : (t.recordName?.bind fun typeName => s.member? typeName name) = some m) :
    ∃ typeName, t = .record typeName ∧ s.memberType? (.record typeName) name = some m.type ∧ m.name = name := by
  obtain ⟨typeName, hname, hm⟩ := Option.bind_eq_some_iff.mp h
  refine ⟨typeName, by cases t <;> cases hname; rfl, Option.map_eq_some_iff.mpr ⟨m, hm, rfl⟩, ?_⟩
  obtain ⟨_, _, hm⟩ := Option.bind_eq_some_iff.mp hm
  obtain ⟨_, _, hm⟩ := Option.bind_eq_some_iff.mp hm
  cases hm
  rfl

namespace Context

variable {d₁ d₂ : Context} {x it : RangeVariable} {id : Nat} {record name : String} {t : HostType} {e₁ e₂ : Expr}

/-! ### Members as they are read -/

theorem guardIfNeeded_eval_of_null [External] {ctx : Context} {source : Expr}
    (hguard : ctx.needsGuard source = true) {env : Env}
    (hsource : source.eval env = .ok .null) (result : Expr) :
    (ctx.guardIfNeeded source result).eval env = .ok .null := by
  rw [guardIfNeeded_eq, List.filter_singleton, hguard, Bool.cond_true, Expr.eval_guardCall, Expr.someNull, hsource]
  rfl

theorem type_guardIfNeeded (ctx : Context) (source result : Expr) :
    (ctx.guardIfNeeded source result).type =
      if ctx.needsGuard source then result.type.toNullable else result.type := by
  rw [guardIfNeeded_eq, List.filter_singleton]
  cases ctx.needsGuard source with
  | false => rfl
  | true => exact Expr.type_guardCall _ _ _

/-- A member as it is read, guarded and widened. -/
def guardedMember (ctx : Context) (source : Expr) (m : Member) : Expr :=
  ctx.guardIfNeeded source (Expr.widenPrimitive (.member source m))

theorem type_guardedMember (ctx : Context) (source : Expr) (m : Member) :
    (ctx.guardedMember source m).type =
      if ctx.needsGuard source then m.type.common.toNullable else m.type.common := by
  rw [guardedMember, type_guardIfNeeded, Expr.type_widenPrimitive]
  rfl

theorem constValue?_guardedMember (ctx : Context) (source : Expr) (m : Member) :
    (ctx.guardedMember source m).constValue? = none := by
  unfold guardedMember guardIfNeeded Expr.widenPrimitive
  split <;> split <;> rfl

theorem guardedMember_eval_of_error [External] {ctx : Context} {source : Expr} {env : Env} {err : Error}
    (hsource : source.eval env = .error err) (m : Member) :
    ∃ err', (ctx.guardedMember source m).eval env = .error err' := by
  have hmember : (Expr.member source m).eval env = .error err := by
    rw [Expr.eval, hsource]
    rfl
  rw [guardedMember, guardIfNeeded_eq, List.filter_singleton]
  cases ctx.needsGuard source with
  | false => exact ⟨err, Expr.widenPrimitive_eval_error hmember⟩
  | true =>
    rw [Bool.cond_true, Expr.eval_guardCall, Expr.someNull, hsource]
    exact ⟨err, rfl⟩

/-- The record of a clause is not guarded. -/
theorem guardedMember_eval_of_current [External] {ctx : Context} {env : Env}
    (hnull : env.lookup ctx.current.id = some .null)
    (m : Member) : ∃ err, (ctx.guardedMember (.param ctx.current) m).eval env = .error err := by
  have hread : ∃ err, (Expr.member (.param ctx.current) m).eval env = .error err := by
    rw [Expr.eval, Expr.eval_param_of_lookup hnull]
    exact ⟨_, rfl⟩
  have hguard : ctx.needsGuard (.param ctx.current) = false := by simp [needsGuard, isCurrent]
  obtain ⟨err, herr⟩ := hread
  unfold guardedMember guardIfNeeded
  rw [hguard, if_neg Bool.false_ne_true]
  exact ⟨err, Expr.widenPrimitive_eval_error herr⟩

/-- The value of a member of a record. -/
theorem guardedMember_admits [External] {ctx : Context} {source : Expr} {m : Member} {env : Env} {v u : Value}
    (hsource : source.eval env = .ok v) (hnull : v.isNull = false) (hu : v.field? m.name = some u)
    (hadmits : ctx.schema.admits m.type u = true) :
    (ctx.guardedMember source m).eval env = .ok (u.readAs m.type) ∧
      ctx.schema.admits (ctx.guardedMember source m).type (u.readAs m.type) = true := by
  refine ⟨memberAccess_eval hsource hnull hu hadmits, ?_⟩
  have hread : (Expr.member source m).eval env = .ok u := by
    rw [Expr.eval, hsource]
    cases v <;> first | cases hu | exact congrArg (orFail _) hu
  have hcommon := (Expr.widenPrimitive_eval hread hadmits).2
  rw [Expr.type_widenPrimitive] at hcommon
  rw [type_guardedMember]
  split_ifs
  · exact (Schema.convert_of_admits hcommon (HostType.nonNullable_toNullable _).symm
      fun _ => HostType.isNullable_toNullable _).2
  · exact hcommon

/-! ### Members of places -/

section Member

variable [External] (hitem : d₁.Itemwise d₂ x it id record) (h : Expr.Locates d₁ d₂ id record t e₁ e₂)
    {typeName : String}
  (htype : e₂.type = .record typeName)
include hitem h htype

/-- A variable is guarded, and what is read from it. -/
theorem needsGuard_left : d₁.needsGuard e₁ = true := by
  have htypeLeft : e₁.type = .record typeName := by
    rw [h.lifts.eq_of_isNullable (by rw [htype]; rfl), htype]
  simp [needsGuard, hitem.settings, hitem.propagation, htypeLeft, h.currentLeft,
    (Expr.plain_of_constValue? h.constLeft).2, HostType.isNullable, HostType.isValueType]

/-- All but the record of the clause is guarded. -/
theorem needsGuard_right (hother : e₂ ≠ .param d₂.current) : d₂.needsGuard e₂ = true := by
  have hcurrent : d₂.isCurrent e₂ = false := Bool.eq_false_iff.mpr fun hc => hother (h.currentRight hc)
  simp [needsGuard, hitem.propagation, htype, hcurrent, (Expr.plain_of_constValue? h.constRight).2,
    HostType.isNullable, HostType.isValueType]

/-- Only the members of the record of the clause have their types without null. -/
theorem type_guardedMembers (m : Member) : (d₁.guardedMember e₁ m).type = m.type.common.toNullable ∧
    (e₂ ≠ .param d₂.current → (d₂.guardedMember e₂ m).type = m.type.common.toNullable) := by
  rw [type_guardedMember, type_guardedMember, if_pos (needsGuard_left hitem h htype)]
  exact ⟨rfl, fun hother => if_pos (needsGuard_right hitem h htype hother)⟩

variable {m : Member} {env : Env} {v : Value}

theorem guardedMember_atRecord (hm : d₂.schema.memberType? (.record typeName) m.name = some m.type)
    (hv : env.lookup id = some v) (hadmits : d₂.schema.admits (.record record) v = true) (hnull : v.isNull = false) :
    ∃ w, (d₁.guardedMember e₁ m).eval env = .ok w ∧ (d₂.guardedMember e₂ m).eval env = .ok w ∧
      d₂.schema.admits (d₂.guardedMember e₂ m).type w = true := by
  obtain ⟨w, hw₁, hw₂, hw⟩ := h.atRecord hv hadmits hnull
  cases hwnull : w.isNull with
  | true =>
    obtain rfl := Value.eq_null hwnull
    have hother : e₂ ≠ .param d₂.current := by
      rintro rfl
      rw [Expr.eval_param_of_lookup (hitem.currentId ▸ hv)] at hw₂
      cases hw₂
      cases hnull
    refine ⟨.null, guardIfNeeded_eval_of_null (needsGuard_left hitem h htype) hw₁ _,
      guardIfNeeded_eval_of_null (needsGuard_right hitem h htype hother) hw₂ _, ?_⟩
    rw [(type_guardedMembers hitem h htype m).2 hother]
    exact HostType.isNullable_toNullable _
  | false =>
    rw [htype] at hw
    obtain ⟨u, hu, hum⟩ := Schema.exists_field hw hwnull hm
    obtain ⟨hread, hadmits⟩ := guardedMember_admits hw₂ hwnull hu hum
    exact ⟨u.readAs m.type, memberAccess_eval hw₁ hwnull hu (hitem.schema ▸ hum), hread, hadmits⟩

theorem guardedMember_atNull (hv : env.lookup id = some .null) (m : Member) :
    (d₁.guardedMember e₁ m).eval env = .ok .null ∧ ∃ err, (d₂.guardedMember e₂ m).eval env = .error err := by
  obtain ⟨hleft, hright⟩ := h.atNull hv
  refine ⟨guardIfNeeded_eval_of_null (needsGuard_left hitem h htype) hleft _, ?_⟩
  rcases hright with rfl | ⟨err, herr⟩
  · exact guardedMember_eval_of_current (hitem.currentId ▸ hv) m
  · exact guardedMember_eval_of_error herr m

/-- The member is at a place of its own. -/
theorem guardedMember_locates (hm : d₂.schema.memberType? (.record typeName) m.name = some m.type) :
    Expr.Locates d₁ d₂ id record m.type (d₁.guardedMember e₁ m) (d₂.guardedMember e₂ m) := by
  have htypes : (d₂.guardedMember e₂ m).type = m.type.common ∨
      (d₂.guardedMember e₂ m).type = m.type.common.toNullable := by
    rw [type_guardedMember]
    split_ifs
    · exact .inr rfl
    · exact .inl rfl
  refine ⟨?_, htypes, constValue?_guardedMember _ _ _, constValue?_guardedMember _ _ _,
    (memberAccess_plain hitem.sourceLeft e₁ m).1, fun hcurrent => ?_,
    guardedMember_atRecord hitem h htype hm, fun hv => ?_⟩
  · rw [(type_guardedMembers hitem h htype m).1]
    rcases htypes with htypes | htypes <;> rw [htypes]
    · exact .inr rfl
    · exact .refl _
  · cases hcurrent.symm.trans (memberAccess_plain hitem.sourceRight e₂ m).1
  · obtain ⟨hleft, hright⟩ := guardedMember_atNull hitem h htype hv m
    exact ⟨hleft, .inr hright⟩

end Member

/-- **A member of what is at a place.** It has a type without null on the second side only, and only if the place is
the item itself. -/
theorem memberAccess_locates [External] (hitem : d₁.Itemwise d₂ x it id record)
    (h : Expr.Locates d₁ d₂ id record t e₁ e₂) :
    (d₁.memberAccess e₁ name).Alike (fun a₁ a₂ => ∃ u, d₂.schema.memberType? t name = some u ∧
      Expr.Locates d₁ d₂ id record u a₁ a₂ ∧ d₂.isCurrent a₂ = false ∧ (a₁.type ≠ a₂.type → e₂ = .param d₂.current))
      (d₂.memberAccess e₂ name) := by
  unfold memberAccess
  rw [h.lifts.recordName?, hitem.schema]
  cases hmember : e₂.type.recordName?.bind fun typeName => d₂.schema.member? typeName name with
  | none => trivial
  | some m =>
    obtain ⟨typeName, htype, hm, hname⟩ := Schema.exists_record_of_member hmember
    have ht : t = .record typeName := HostType.eq_record_of_common <| by
      rcases h.type with ht | ht
      · rw [← ht, htype]
        rfl
      · rw [← ht, htype]
    refine ⟨m.type, ht ▸ hm, guardedMember_locates hitem h htype (hname ▸ hm),
      (memberAccess_plain hitem.sourceRight e₂ m).1, fun hne => ?_⟩
    by_contra hother
    obtain ⟨hleft, hright⟩ := type_guardedMembers hitem h htype m
    exact hne (hleft.trans (hright hother).symm)

end Context

/-! ## Binding on both sides -/

/-- In contexts that `K` relates, the computations both give related results or both fail. -/
abbrev BindM.RunAlike {α β : Type} (K : Context → Context → Prop) (R : α → β → Prop) (x : BindM α) (y : BindM β) :
    Prop := Relates K (fun _ => True) (fun _ _ => True) R x y

/-- What is read from contexts. -/
theorem BindM.RunAlike.reads {α β : Type} {K : Context → Context → Prop} {R : α → β → Prop}
    {f : Context → Outcome α} {g : Context → Outcome β} (h : ∀ {c₁ c₂}, K c₁ c₂ → (f c₁).Alike R (g c₂)) :
    RunAlike K R (BindM.reads f) (BindM.reads g) where
  ok {c₁ c₂ a c₁'} hK hx := by
    obtain ⟨hf, rfl⟩ := Prod.mk.inj hx
    obtain ⟨b, hb, hab⟩ := (h hK).exists_right hf
    exact ⟨b, c₂, Prod.ext hb rfl, hab, hK⟩
  error {c₁ c₂ e c₁'} hK hx _ := by
    obtain ⟨hf, -⟩ := Prod.mk.inj hx
    have halike := h hK
    rw [hf] at halike
    cases hg : g c₂ with
    | ok b =>
      rw [hg] at halike
      exact halike.elim
    | error e' => exact ⟨e', c₂, Prod.ext hg rfl, trivial⟩

/-- The outcomes in related contexts. -/
theorem BindM.RunAlike.alike {α β : Type} {K : Context → Context → Prop} {R : α → β → Prop} {x : BindM α}
    {y : BindM β} (h : RunAlike K R x y) {c₁ c₂ : Context} (hK : K c₁ c₂) : ((x c₁).1).Alike R (y c₂).1 := by
  refine .of_exists (fun a ha => ?_) fun b hb => ?_
  · obtain ⟨b, c₂', hb, hab, -⟩ := h.ok hK (Prod.ext ha rfl)
    exact ⟨b, by rw [hb], hab⟩
  · cases hx : (x c₁).1 with
    | ok a => exact ⟨a, rfl⟩
    | error e =>
      obtain ⟨e', c₂', he, -⟩ := h.error hK (Prod.ext hx rfl) trivial
      rw [he] at hb
      cases hb

section Binding

variable {d₁ d₂ : Context} {x it : RangeVariable} {id : Nat} {record : String}

theorem Context.Within.shallower {c₁ c₂ : Context} (hc : d₁.Within d₂ c₁ c₂) :
    d₁.Within d₂ c₁.shallower c₂.shallower :=
  ⟨{ hc.left with }, { hc.right with }, congrArg (· - 1) hc.depth⟩

/-! ### Paths -/

/-- What a chain of properties is bound to on both sides. -/
structure ItemPath.Located [External] (d₁ d₂ : Context) (id : Nat) (record : String) (p : ItemPath)
    (e₁ e₂ : Expr) : Prop where
  place : ∃ t, p.type? d₂.schema record = some t ∧ Expr.Locates d₁ d₂ id record t e₁ e₂
  plain : e₁.type ≠ e₂.type → (ItemPredicate.path p).plainType? d₂.schema record = some e₂.type
  item : e₂ = .param d₂.current → p = .item

section Paths

variable (h : d₁.Itemwise d₂ x it id record)
include h

theorem Context.Itemwise.descend {α β : Type} {R : α → β → Prop} {y : BindM α} {z : BindM β}
    (hyz : BindM.RunAlike (d₁.Within d₂) R y z) :
    BindM.RunAlike (d₁.Within d₂) R (BindM.descend y) (BindM.descend z) :=
  Relates.descend (fun _ => trivial) hyz (fun hc => hc.depth)
    (fun hc => by rw [hc.left.settings, hc.right.settings, h.settings]) (fun hc => hc.deeper) fun hc => hc.shallower

theorem Bind.item_relates [External] :
    BindM.RunAlike (d₁.Within d₂) (ItemPath.Located d₁ d₂ id record .item) (BindM.reads fun ctx => ctx.resolve x)
      (BindM.reads fun ctx => ctx.resolve it) := by
  refine .reads fun hc => ?_
  obtain ⟨p, hp, hcurrent, hid, htype⟩ := h.left
  rw [hc.left.resolve, hc.right.resolve, hp, h.right]
  refine ⟨⟨_, rfl, Expr.locates_item h hcurrent hid htype⟩, fun hne => absurd ?_ hne, fun _ => rfl⟩
  rw [Expr.type, Expr.type, htype, h.currentType]

/-- A property of what a chain leads to. -/
theorem Context.memberAccess_located [External] {c₁ c₂ : Context} (hc : d₁.Within d₂ c₁ c₂)
    {source : ItemPath} {e₁ e₂ : Expr}
    (hs : source.Located d₁ d₂ id record e₁ e₂) (name : String) (kind : PropertyKind) :
    (c₁.memberAccess e₁ name).Alike ((source.property name kind).Located d₁ d₂ id record)
      (c₂.memberAccess e₂ name) := by
  obtain ⟨⟨t, ht, hplace⟩, -, hitem⟩ := hs
  rw [hc.left.memberAccess, hc.right.memberAccess]
  refine (memberAccess_locates h hplace).mono fun a₁ a₂ ⟨u, hu, ha, hother, hplain⟩ => ?_
  refine ⟨⟨u, ?_, ha⟩, fun hne => ?_, fun hcurrent => ?_⟩
  · rw [ItemPath.type?, ht]
    exact hu
  · obtain rfl := hitem (hplain hne)
    cases ht
    -- the first type is the second with null, and so the second has none
    have hlifts := ha.lifts.resolve_left hne
    have hvalue : a₂.type.isValueType = true := by
      unfold HostType.toNullable at hlifts
      split_ifs at hlifts with hvalue
      · exact hvalue
      · exact absurd hlifts hne
    have hcommon : a₂.type = u.common := ha.type.resolve_right fun htype => by
      rw [htype] at hlifts hne
      rw [HostType.toNullable_toNullable] at hlifts
      exact hne hlifts
    rw [ItemPredicate.plainType?, hu, Option.map_some, ← hcommon, Option.filter_some, if_pos hvalue]
  · rw [hcurrent] at hother
    simp [isCurrent] at hother

/-- **A chain of properties is bound to expressions for one place.** -/
theorem ItemPath.bindWithin_relates [External] (p : ItemPath) (levels : Nat) :
    BindM.RunAlike (d₁.Within d₂) (p.Located d₁ d₂ id record) ((p.toNode x).bindWithin levels)
      ((p.toNode it).bindWithin levels) := by
  induction p generalizing levels with
  | item =>
    cases levels with
    | zero => exact .reads fun _ => trivial
    | succ levels => exact h.descend (Bind.item_relates h)
  | property source name kind ih =>
    cases levels with
    | zero => exact .reads fun _ => trivial
    | succ levels =>
      refine h.descend (Relates.context.bind fun c₁ c₂ hc => ?_)
      have hread (c : Context) (hc : c.flattened = []) (node : Node) : c.flattenedRead? node = none := by
        unfold Context.flattenedRead?
        rw [hc]
        cases node.path? <;> rfl
      rw [hread c₁ (hc.left.flattened.trans h.flattenedLeft), hread c₂ (hc.right.flattened.trans h.flattenedRight)]
      exact (ih levels).bind fun e₁ e₂ he => BindM.RunAlike.reads fun hc =>
        Context.memberAccess_located h hc he name kind

end Paths

/-! ### Literals -/

/-- What a predicate is bound to on both sides. -/
structure ItemPredicate.Bound [External] (s : Schema) (id : Nat) (record : String) (p : ItemPredicate)
    (e₁ e₂ : Expr) : Prop
    extends Expr.Tracks (Env.HasItem s id record) (Env.HasRecord id) (p.hasConnective = false) e₁ e₂ where
  constValue : e₁.constValue? = e₂.constValue?
  asEnum? : e₂.type.asEnum? = p.enum? s record
  isNull : e₂.isNullConst = p.isNull
  plain : e₁.type ≠ e₂.type → e₂.type = .bool ∨ p.plainType? s record = some e₂.type

/-- An expression for a literal that is not null, inline or by reference. -/
structure Expr.IsLiteral (v : Value) (t : HostType) (e : Expr) : Prop where
  constValue : e.constValue? = some v
  type : e.type = t

theorem Expr.IsLiteral.isNullConst {v : Value} {t : HostType} {e : Expr} (h : e.IsLiteral v t)
    (hnull : v.isNull = false) :
    e.isNullConst = false := by
  have hconst := h.constValue
  cases e <;> first | rfl | skip
  cases hconst
  cases v <;> first | rfl | cases hnull

theorem Expr.IsLiteral.tracks [External] {V S : Env → Prop} {strict : Prop} {v : Value} {t : HostType}
    {e₁ e₂ : Expr}
    (h₁ : e₁.IsLiteral v t) (h₂ : e₂.IsLiteral v t) (hnull : v.isNull = false) (hv : v.Suits t) :
    Tracks V S strict e₁ e₂ := by
  refine ⟨?_, by rw [h₁.isNullConst hnull, h₂.isNullConst hnull], by simp [h₂.isNullConst hnull], fun env _ => ?_⟩
  · rw [h₁.type, h₂.type]
    exact .refl _
  · rw [eval_of_constValue? h₁.constValue, eval_of_constValue? h₂.constValue, h₂.type]
    exact .ok hv

theorem BindM.exists_literal (v : Value) (t : HostType) (c : Context) :
    ∃ e, (constant v t c).1 = .ok e ∧ e.IsLiteral v t := by
  obtain ⟨-, -, h⟩ | h := constant_cases v t c <;> rw [h] <;> exact ⟨_, rfl, rfl, rfl⟩

theorem Bind.literal_relates (v : Value) (t : HostType) :
    BindM.RunAlike (d₁.Within d₂) (fun e₁ e₂ => e₁.IsLiteral v t ∧ e₂.IsLiteral v t) (BindM.constant v t)
      (BindM.constant v t) := by
  refine ⟨fun {c₁ c₂ a c₁'} hc hx => ?_, fun {c₁ c₂ e c₁'} hc hx => ?_⟩
  · obtain ⟨e₁, he₁, h₁⟩ := BindM.exists_literal v t c₁
    obtain ⟨e₂, he₂, h₂⟩ := BindM.exists_literal v t c₂
    have hframe := BindM.Keeps.constant v t c₁
    rw [hx] at he₁ hframe
    cases he₁
    exact ⟨e₂, _, Prod.ext he₂ rfl, ⟨h₁, h₂⟩, hc.frame hframe (BindM.Keeps.constant v t c₂)⟩
  · exact absurd hx BindM.constant_ne_error

/-- A literal that is not null, with its type. -/
theorem ItemPredicate.Bound.of_literal [External] {s : Schema} {l : Literal} {type : Option LogicalType}
    {v : Value} {t : HostType}
    {e₁ e₂ : Expr} (h₁ : e₁.IsLiteral v t) (h₂ : e₂.IsLiteral v t) (hnull : v.isNull = false) (hv : v.Suits t)
    (hl : l ≠ .null) (henum : t.asEnum? = (constant l type).enum? s record) :
    (constant l type).Bound s id record e₁ e₂ where
  toTracks := h₁.tracks h₂ hnull hv
  constValue := by rw [h₁.constValue, h₂.constValue]
  asEnum? := by rw [h₂.type, henum]
  isNull := by
    rw [h₂.isNullConst hnull]
    cases l <;> first | rfl | exact absurd rfl hl
  plain hne := absurd (h₁.type.trans h₂.type.symm) hne

theorem Bind.literal_bound [External] {l : Literal} {type : Option LogicalType} {v : Value} {t : HostType}
    (hnull : v.isNull = false) (hv : v.Suits t) (hl : l ≠ .null)
    (henum : t.asEnum? = (ItemPredicate.constant l type).enum? d₂.schema record) :
    BindM.RunAlike (d₁.Within d₂) ((ItemPredicate.constant l type).Bound d₂.schema id record) (BindM.constant v t)
      (BindM.constant v t) :=
  (literal_relates v t).weaken fun _ _ hliteral => .of_literal hliteral.1 hliteral.2 hnull hv hl henum

section Literals

variable (h : d₁.Itemwise d₂ x it id record)
include h

theorem Bind.hostType_relates (t : LogicalType) :
    BindM.RunAlike (d₁.Within d₂) (fun a b => a = b ∧ d₂.schema.hostType? t = some b)
      (BindM.reads fun ctx => ctx.hostType t) (BindM.reads fun ctx => ctx.hostType t) := by
  refine .reads fun hc => ?_
  unfold Context.hostType
  rw [hc.left.schema, hc.right.schema, h.schema]
  cases d₂.schema.hostType? t with
  | none => trivial
  | some host => exact ⟨rfl, rfl⟩

theorem Bind.enumConstant_relates [External] (hnames : d₂.schema.NamesEnums) (typeName spelling : String)
    (type : Option LogicalType) :
    BindM.RunAlike (d₁.Within d₂) ((ItemPredicate.constant (.enum typeName spelling) type).Bound d₂.schema id record)
      (Bind.enumConstant typeName spelling) (Bind.enumConstant typeName spelling) := by
  unfold Bind.enumConstant
  refine (hostType_relates h _).bind fun host _ hread => ?_
  obtain ⟨rfl, hfound⟩ := hread
  cases hasEnum : host.asEnum? with
  | none => exact .fail trivial
  | some enum =>
    dsimp only
    cases enum.parse? spelling with
    | none => exact .fail trivial
    | some value =>
      obtain ⟨found, hof, rfl⟩ := Option.map_eq_some_iff.mp hfound
      cases hasEnum
      obtain rfl := hnames typeName _ hof
      refine literal_bound rfl (.of_isInstanceOf (beq_self_eq_true found.name)) (by simp) ?_
      rw [ItemPredicate.enum?, hfound]
      rfl

/-- **A literal.** -/
theorem Bind.constant_relates [External] (hnames : d₂.schema.NamesEnums) (l : Literal)
    (type : Option LogicalType) :
    BindM.RunAlike (d₁.Within d₂) ((ItemPredicate.constant l type).Bound d₂.schema id record) (Bind.constant l type)
      (Bind.constant l type) := by
  have hdeclared : BindM.RunAlike (d₁.Within d₂) (fun a b => a = b ∧ b = type.bind d₂.schema.hostType?)
      (BindM.reads fun ctx => type.mapM ctx.hostType) (BindM.reads fun ctx => type.mapM ctx.hostType) := by
    cases type with
    | none => exact BindM.RunAlike.reads fun _ => ⟨rfl, rfl⟩
    | some t =>
      refine BindM.RunAlike.reads fun hc => ?_
      simp only [Option.mapM_some, Context.hostType, hc.left.schema, hc.right.schema, h.schema, Option.bind_some]
      cases d₂.schema.hostType? t with
      | none => trivial
      | some host => exact ⟨rfl, rfl⟩
  unfold Bind.constant
  refine hdeclared.bind fun declared _ hread => ?_
  obtain ⟨rfl, hfound⟩ := hread
  cases l with
  | null =>
    refine .pure ⟨.mkNull (.refl _), rfl, ?_, rfl, fun hne => absurd rfl hne⟩
    change ((declared.getD .object).toNullable).asEnum? = (type.bind d₂.schema.hostType?).bind HostType.asEnum?
    rw [HostType.asEnum?_toNullable, ← hfound]
    cases declared <;> rfl
  | enum typeName spelling => exact enumConstant_relates h hnames typeName spelling type
  | _ =>
    refine literal_bound rfl (.of_isInstanceOf ?_) (by simp) rfl
    simp [Value.isInstanceOf, Value.hostType?, HostType.nonNullable]

end Literals

/-! ### Predicates -/

/-- Operands of a comparison that is the same if types have null. -/
theorem ItemPredicate.Bound.even [External] {s : Schema} {p q : ItemPredicate} {e₁ e₂ f₁ f₂ : Expr}
    (hp : p.Bound s id record e₁ e₂)
    (hq : q.Bound s id record f₁ f₂) {enum? : Option EnumType} (heven : p.isEvenNextTo s record enum? q = true) :
    Bind.Even enum? e₁ e₂ f₂ := by
  intro hne t ht
  rcases hp.plain hne with hbool | hplain
  · rw [hbool] at ht
    unfold Bind.comparedAs? at ht
    split at ht
    · cases ht
      exact ⟨by decide, fun _ => rfl⟩
    · cases ht
  · unfold isEvenNextTo at heven
    rw [hplain, Option.bind_some, ht, Option.all_some, Bool.and_eq_true] at heven
    refine ⟨by simpa using heven.1, fun hnull => ?_⟩
    have hnull : q.isNull = true := hq.isNull ▸ hnull
    simpa [hnull] using heven.2

theorem ItemPredicate.Bound.of_located [External] (p : ItemPath) {e₁ e₂ : Expr}
    (hitem : d₁.Itemwise d₂ x it id record)
    (hp : p.Located d₁ d₂ id record e₁ e₂) : (path p).Bound d₂.schema id record e₁ e₂ := by
  obtain ⟨⟨t, ht, hplace⟩, hplain, -⟩ := hp
  refine ⟨hplace.tracks hitem, by rw [hplace.constLeft, hplace.constRight], ?_,
    (Expr.plain_of_constValue? hplace.constRight).1, fun hne => .inr (hplain hne)⟩
  rw [ItemPredicate.enum?, ht, Option.bind_some]
  rcases hplace.type with htype | htype
  · rw [htype, HostType.asEnum?_common]
  · rw [htype, HostType.asEnum?_toNullable, HostType.asEnum?_common]

/-- What an operator gives is no literal, and of a boolean type. -/
theorem ItemPredicate.Bound.of_bool [External] {s : Schema} {p : ItemPredicate} {strict : Prop} {e₁ e₂ : Expr}
    (he : Expr.Tracks (Env.HasItem s id record) (Env.HasRecord id) strict e₁ e₂)
    (hstrict : p.hasConnective = false → strict) (hconst : e₁.constValue? = none ∧ e₂.constValue? = none)
    (hbool : e₂.type.isBool = true) (henum : p.enum? s record = none) (hnull : p.isNull = false) :
    p.Bound s id record e₁ e₂ := by
  have hkind : e₂.type.nonNullable = .bool := of_decide_eq_true hbool
  refine ⟨he.mono hstrict, by rw [hconst.1, hconst.2], ?_, ?_, fun hne => .inl ?_⟩
  · rw [henum]
    unfold HostType.asEnum?
    rw [hkind]
  · rw [(Expr.plain_of_constValue? hconst.2).1, hnull]
  · refine Bind.type_of_isBool hbool (Bool.eq_false_iff.mpr fun hvalue => hne ?_)
    exact he.type.isNullableValueType hvalue

/-- What logic and comparisons give is a boolean, and no literal. -/
theorem Context.binary_bool {ctx : Context} {op : QueryOp} (hop : op.isLogical = true ∨ op.isComparison = true)
    {l r e : Expr} (he : ctx.binary op l r = .ok e) : e.constValue? = none ∧ e.type.isBool = true := by
  obtain ⟨b, l', r', hb, -, hcases⟩ := binary_cases (by rintro rfl; revert hop; decide) he
  rcases hcases with ⟨hlogical, he⟩ | ⟨hcomparison, he⟩ | ⟨hlogical, hcomparison, -⟩
  · refine ⟨constValue?_logical he, ?_⟩
    unfold Bind.logical at he
    obtain ⟨_, _, he⟩ := Outcome.bind_eq_ok.mp he
    obtain ⟨_, _, he⟩ := Outcome.bind_eq_ok.mp he
    dsimp only at he
    split_ifs at he <;> cases he <;> rw [Bind.type_logical hlogical] <;> split <;> rfl
  · refine ⟨constValue?_comparison he, ?_⟩
    rcases comparison_cases he with ⟨_, _, _, _, rfl⟩ | hordinal | ⟨_, _, rfl⟩
    · exact Expr.isBool_comparison hcomparison _ _ _
    · unfold Bind.ordinal? at hordinal
      dsimp only at hordinal
      split_ifs at hordinal <;> cases hordinal <;> first | rfl | exact Expr.isBool_comparison hcomparison _ _ _
    · exact Expr.isBool_comparison hcomparison _ _ _
  · have hkind : b.isLogical = op.isLogical ∧ b.isComparison = op.isComparison := by
      cases op <;> cases hb <;> exact ⟨rfl, rfl⟩
    rw [← hkind.1, ← hkind.2, hlogical, hcomparison] at hop
    simp at hop

theorem ItemPredicate.not_bound [External] {p : ItemPredicate} {e₁ e₂ : Expr}
    (hp : p.Bound d₂.schema id record e₁ e₂) :
    (Bind.unaryOperation .not e₁).Alike ((ItemPredicate.not p).Bound d₂.schema id record)
      (Bind.unaryOperation .not e₂) := by
  have negated {e a : Expr} (ha : Bind.unaryOperation .not e = .ok a) :
      a.constValue? = none ∧ a.type.isBool = true := by
    unfold Bind.unaryOperation at ha
    dsimp only at ha
    split_ifs at ha with hbool <;> cases ha
    · exact ⟨rfl, hbool⟩
    · exact ⟨rfl, rfl⟩
  have htracks := Bind.not_tracks hp.toTracks
  cases ha₁ : Bind.unaryOperation .not e₁ <;> cases ha₂ : Bind.unaryOperation .not e₂ <;> rw [ha₁, ha₂] at htracks <;>
    first | exact htracks | skip
  exact .of_bool htracks (fun hnone => hnone) ⟨(negated ha₁).1, (negated ha₂).1⟩ (negated ha₂).2 rfl rfl

section Predicates

variable [External] (h : d₁.Itemwise d₂ x it id record)
include h

/-- A comparison or a connective. -/
theorem ItemPredicate.binary_bound {c₁ c₂ : Context} (hc : d₁.Within d₂ c₁ c₂) {p l r : ItemPredicate} {op : QueryOp}
    (hp : (∃ hop, p = .compare op hop l r) ∨ ∃ hop, p = .logic op hop l r)
    (heven : p.isEven d₂.schema record = true) {l₁ l₂ r₁ r₂ : Expr} (hl : l.Bound d₂.schema id record l₁ l₂)
    (hr : r.Bound d₂.schema id record r₁ r₂) :
    (c₁.binary op l₁ r₁).Alike (p.Bound d₂.schema id record) (c₂.binary op l₂ r₂) := by
  have hsettings : c₁.settings = c₂.settings := by rw [hc.left.settings, hc.right.settings, h.settings]
  have bound {strict : Prop} (htracks : (c₁.binary op l₁ r₁).Alike
        (Expr.Tracks (Env.HasItem d₂.schema id record) (Env.HasRecord id) strict) (c₂.binary op l₂ r₂))
      (hop : op.isLogical = true ∨ op.isComparison = true) (hstrict : p.hasConnective = false → strict)
      (henum : p.enum? d₂.schema record = none) (hnull : p.isNull = false) :
      (c₁.binary op l₁ r₁).Alike (p.Bound d₂.schema id record) (c₂.binary op l₂ r₂) := by
    cases ho₁ : c₁.binary op l₁ r₁ <;> cases ho₂ : c₂.binary op l₂ r₂ <;> rw [ho₁, ho₂] at htracks <;>
      first | exact htracks | skip
    obtain ⟨hconst₁, -⟩ := Context.binary_bool hop ho₁
    obtain ⟨hconst₂, hbool⟩ := Context.binary_bool hop ho₂
    exact .of_bool htracks hstrict ⟨hconst₁, hconst₂⟩ hbool henum hnull
  rcases hp with ⟨hop, rfl⟩ | ⟨hop, rfl⟩
  · simp only [isEven, Bool.and_eq_true] at heven
    have henum : Bind.unifiedBy? l₂.type r₂.type =
        (l.enum? d₂.schema record).orElse fun _ => r.enum? d₂.schema record := by
      rw [Bind.unifiedBy?, hl.asEnum?, hr.asEnum?]
    exact bound (Context.comparison_tracks hop hsettings
        (hl.toTracks.mono fun hnone => (Bool.or_eq_false_iff.mp hnone).1)
        (hr.toTracks.mono fun hnone => (Bool.or_eq_false_iff.mp hnone).2) hl.constValue hr.constValue
        (henum ▸ hl.even hr heven.1.2) (henum ▸ hr.even hl heven.2))
      (.inr hop) (fun hnone => hnone) rfl rfl
  · exact bound (Context.logical_tracks hop (hl.toTracks.mono False.elim) (hr.toTracks.mono False.elim) hl.constValue
      hr.constValue) (.inl hop) (fun hnone => by cases hnone) rfl rfl

/-- **A predicate is bound to expressions that track each other.** -/
theorem ItemPredicate.bindWithin_relates (hnames : d₂.schema.NamesEnums) (p : ItemPredicate)
    (heven : p.isEven d₂.schema record = true) (levels : Nat) :
    BindM.RunAlike (d₁.Within d₂) (p.Bound d₂.schema id record) ((p.toNode x).bindWithin levels)
      ((p.toNode it).bindWithin levels) := by
  induction p generalizing levels with
  | path p => exact (p.bindWithin_relates h levels).weaken fun e₁ e₂ he => .of_located p h he
  | constant l type =>
    cases levels with
    | zero => exact BindM.RunAlike.reads fun _ => trivial
    | succ levels => exact h.descend (Bind.constant_relates h hnames l type)
  | compare op hop l r ihl ihr =>
    have heven' := heven
    simp only [isEven, Bool.and_eq_true] at heven'
    cases levels with
    | zero => exact BindM.RunAlike.reads fun _ => trivial
    | succ levels =>
      refine h.descend ((ihl heven'.1.1.1 levels).bind fun l₁ l₂ hl =>
        (ihr heven'.1.1.2 levels).bind fun r₁ r₂ hr => ?_)
      exact BindM.RunAlike.reads fun hc => binary_bound h hc (.inl ⟨hop, rfl⟩) heven hl hr
  | logic op hop l r ihl ihr =>
    have heven' := heven
    simp only [isEven, Bool.and_eq_true] at heven'
    cases levels with
    | zero => exact BindM.RunAlike.reads fun _ => trivial
    | succ levels =>
      refine h.descend ((ihl heven'.1 levels).bind fun l₁ l₂ hl => (ihr heven'.2 levels).bind fun r₁ r₂ hr => ?_)
      exact BindM.RunAlike.reads fun hc => binary_bound h hc (.inr ⟨hop, rfl⟩) heven hl hr
  | not operand ih =>
    cases levels with
    | zero => exact BindM.RunAlike.reads fun _ => trivial
    | succ levels =>
      refine h.descend ((ih heven levels).bind fun e₁ e₂ he => ?_)
      exact BindM.RunAlike.reads fun _ => not_bound he

/-- **The predicate of a quantifier and that of a filter.** -/
theorem ItemPredicate.filter_relates (hnames : d₂.schema.NamesEnums) (p : ItemPredicate)
    (heven : p.isEven d₂.schema record = true) (levels : Nat) (q : Param) :
    BindM.RunAlike (d₁.Within d₂)
      (fun l₁ l₂ => l₁.param = q ∧ l₂.param = d₂.current ∧ ∀ env, env.HasItem d₂.schema id record →
        (l₁.body.eval env).Tracks (env.HasRecord id) (p.hasConnective = false) Value.IsBool (l₂.body.eval env))
      (Bind.predicate (Node.bindWithin levels) (p.toNode x) q)
      (Bind.filterLambda (Node.bindWithin levels) (p.toNode it)) := by
  refine (p.bindWithin_relates h hnames heven levels).bind fun e₁ e₂ he => ?_
  have hnormal := BindM.RunAlike.reads fun {c₁ c₂} (hc : d₁.Within d₂ c₁ c₂) =>
    Context.normalizePredicate_tracks
      (show c₁.settings = c₂.settings by rw [hc.left.settings, hc.right.settings, h.settings])
      (by rw [hc.right.settings, h.propagation]) he.toTracks
  refine hnormal.bind fun e₁ e₂ ⟨_, htype, he⟩ => ?_
  rw [if_pos htype]
  change BindM.RunAlike _ _ (BindM.reads fun _ => .ok (Lambda.mk q e₁))
    (BindM.reads fun ctx => .ok (Lambda.mk ctx.current e₂))
  exact BindM.RunAlike.reads fun hc => ⟨rfl, hc.right.current, he⟩

end Predicates

end Binding

end TypedQuery
