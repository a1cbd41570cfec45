import Mathlib.Tactic.Common
import TypedQuery.Proofs.Conformance
import TypedQuery.Proofs.Equality

/-!
# Operations on well-formed values

What is computed from well-formed values is well-formed: most operations give scalars, and the others
give parts of their operands or put these together.

* `Outcome.Gives`: a result has a property, if there is one.
* `Value.convert_wellFormed`, `Value.member_wellFormed`, …: one lemma for each operation.
* `Expr.Sound`: expressions that give well-formed values where parameters have such values.
* **`Expr.Sound.call`**, …: the nodes of expressions keep this.
-/

namespace TypedQuery

/-! ## Results with a property -/

namespace Outcome

variable {α β : Type} {Q : β → Prop}

/-- The outcome has a property if it is a result. -/
abbrev Gives (P : α → Prop) (o : Outcome α) : Prop := o.Meets (fun _ => True) P

/-- A computation whose first result does not matter. -/
theorem Meets.after {o : Outcome α} {f : α → Outcome β} (hf : ∀ a, (f a).Gives Q) :
    (o >>= f).Gives Q := by
  cases o with
  | error e => trivial
  | ok a => exact hf a

/-- Atoms are well-formed. -/
theorem NullSafe.wellFormed {o : Outcome Value} {P : Value → Prop} (ho : o.NullSafe P)
    (hP : ∀ v, P v → v.isAtom = true) : o.Gives Value.WellFormed := by
  cases o with
  | error e => trivial
  | ok v => exact .scalar (Value.isScalar_of_isAtom (hP v ho))

end Outcome

namespace Value

/-! ## Conversions -/

theorem ofInt_wellFormed (n : Int) (t : HostType) : (ofInt n t).Gives WellFormed :=
  (ofInt_nullSafe n t).wellFormed fun _ hw => hw.1

theorem ofFloat_wellFormed (x : Float) (t : HostType) : (ofFloat x t).Gives WellFormed :=
  (ofFloat_nullSafe x t).wellFormed fun _ hw => hw.1

/-- Apart from collections, a conversion keeps the value or gives a scalar. -/
theorem convert_other_wellFormed {v : Value} (hv : v.WellFormed) (hitems : ∀ items, v ≠ .collection items)
    (target : HostType) : (v.convert target).Gives WellFormed := by
  cases hnull : v.isNull with
  | true =>
    obtain rfl := eq_null hnull
    unfold convert
    split_ifs
    · exact hv
    · trivial
  | false =>
    rw [convert_of_not_collection hnull hitems]
    split_ifs
    · exact hv
    · exact (convertScalar_nullSafe v target).wellFormed fun _ hw => hw.1

theorem convert_wellFormed {v : Value} (hv : v.WellFormed) (target : HostType) :
    (v.convert target).Gives WellFormed := by
  induction hv generalizing target with
  | collection hitems ih =>
    unfold convert
    split
    next element _ =>
      rw [convertItems_eq_mapM]
      exact (Outcome.Meets.mapM fun v hv => ih v hv element).bind fun ws hws => .collection hws
    next =>
      split_ifs
      · exact .collection hitems
      · trivial
  | scalar h =>
    refine convert_other_wellFormed (.scalar h) (fun items => ?_) target
    rintro rfl
    cases h
  | record hnames hfields => exact convert_other_wellFormed (.record hnames hfields) nofun target
  | grouping hkey hitems => exact convert_other_wellFormed (.grouping hkey hitems) nofun target
  | dictionary hnames hentries => exact convert_other_wellFormed (.dictionary hnames hentries) nofun target
  | container hslots => exact convert_other_wellFormed (.container hslots) nofun target
  | wrapper hmembers => exact convert_other_wellFormed (.wrapper hmembers) nofun target

end Value

/-! ## Operators and functions -/

open Value (WellFormed)

theorem UnaryOp.apply_wellFormed (op : UnaryOp) (v : Value) : (op.apply v).Gives WellFormed := by
  have hsafe := op.apply_nullSafe v
  cases hw : op.apply v with
  | error e => trivial
  | ok w =>
    rw [hw] at hsafe
    rcases hsafe with ⟨hnull, -⟩ | ⟨hatom, -⟩
    · rw [Value.eq_null hnull]
      exact .scalar rfl
    · exact .scalar (Value.isScalar_of_isAtom hatom)

namespace BinaryOp

theorem compareValues_wellFormed (op : BinaryOp) (l r : Value) (lifted : Bool) :
    (op.compareValues l r lifted).Gives WellFormed := by
  unfold compareValues
  split_ifs
  · unfold compareNulls
    split_ifs
    · exact .scalar rfl
    · cases op <;> exact .scalar rfl
  · split
    next => exact .scalar rfl
    next => exact .scalar rfl
    next =>
      split
      next => exact .scalar rfl
      next => trivial

theorem shortCircuit_wellFormed (op : BinaryOp) (l : Value) (r : Unit → Outcome Value) :
    (op.shortCircuit l r).Gives WellFormed := by
  unfold shortCircuit
  split
  next =>
    split_ifs
    · exact .scalar rfl
    · refine .after fun v => ?_
      split
      next => exact .scalar rfl
      next => trivial
  next => trivial

theorem apply_wellFormed (op : BinaryOp) (l r : Value) (lifted : Bool) (t : HostType) :
    (op.apply l r lifted t).Gives WellFormed := by
  unfold apply
  split_ifs
  · refine .after fun a => .after fun b => .scalar ?_
    cases op.combine a b <;> rfl
  · exact op.compareValues_wellFormed l r lifted
  · exact .scalar rfl
  · exact (op.arithmetic_nullSafe l r _).wellFormed fun _ hw => hw.1

end BinaryOp

namespace ScalarFunction

variable {f : ScalarFunction} {args : List Value}

theorem roundValue_wellFormed (mode : Number.Rounding) (v : Value) :
    (roundValue f mode v).Gives WellFormed := by
  cases hv : v.isNull with
  | true =>
    obtain rfl := Value.eq_null hv
    trivial
  | false => exact (roundValue_nullSafe mode hv).wellFormed fun _ hw => hw.1

theorem apply_wellFormed [External] (hargs : ∀ v ∈ args, v.WellFormed) : (f.apply args).Gives WellFormed := by
  unfold apply
  split
  next =>
    rw [positionOf_eq]
    exact .scalar rfl
  next =>
    unfold matchPattern
    split
    next => exact .scalar rfl
    next => trivial
  next v => exact v.convert_wellFormed (hargs v List.mem_cons_self) _
  next v => exact v.convert_wellFormed (hargs v List.mem_cons_self) _
  next => exact roundValue_wellFormed _ _
  next => exact roundValue_wellFormed _ _
  next => exact roundValue_wellFormed _ _
  next =>
    exact .orFail trivial fun w hw => .scalar (Value.isScalar_of_isAtom (hasResult_of_computed hw).1)

end ScalarFunction

/-! ## Parts -/

namespace Value

theorem WellFormed.get? {es : Entries Value} (h : ∀ e ∈ es, e.2.WellFormed) {name : String} {v : Value}
    (hv : Entries.get? es name = some v) : v.WellFormed := h _ (Entries.mem_of_get? hv)

/-- A part that may be missing. -/
theorem WellFormed.getD {o : Option Value} (h : ∀ v, o = some v → v.WellFormed) :
    (o.getD .null).WellFormed := by
  cases o with
  | none => exact .scalar rfl
  | some v => exact h v rfl

theorem member_wellFormed {v : Value} (hv : v.WellFormed) (name : String) :
    (v.member name).Gives WellFormed := by
  unfold member
  dsimp only
  split
  next => trivial
  next =>
    cases hv with
    | scalar h => cases h
    | record _ hfields => exact .orFail trivial fun _ => .get? hfields
  next =>
    cases hv with
    | scalar h => cases h
    | grouping hkey _ =>
      split_ifs
      · exact hkey
      · trivial
  next =>
    cases hv with
    | scalar h => cases h
    | wrapper hmembers =>
      split
      next m _ => exact WellFormed.getD (hmembers m)
      next => trivial
  next => trivial

theorem entry_wellFormed {v : Value} (hv : v.WellFormed) (key : Value) :
    (v.entry key).Gives WellFormed := by
  unfold entry
  split
  next =>
    cases hv with
    | scalar h => cases h
    | dictionary _ hentries => exact .orFail trivial fun _ => .get? hentries
  next => trivial
  next => trivial

end Value

theorem Schema.dynamicProperty_wellFormed (s : Schema) {v : Value} (hv : v.WellFormed) (name : String) :
    (s.dynamicProperty v name).Gives WellFormed := by
  unfold dynamicProperty
  split
  next =>
    cases hv with
    | scalar h => cases h
    | dictionary _ hentries => exact WellFormed.getD fun _ => .get? hentries
  next =>
    cases hv with
    | scalar h => cases h
    | record _ hfields =>
      split_ifs
      · split
        next hbag =>
          obtain ⟨m, _, hm⟩ := Option.bind_eq_some_iff.mp hbag
          cases WellFormed.get? hfields hm with
          | scalar h => cases h
          | dictionary _ hentries => exact WellFormed.getD fun _ => .get? hentries
        next => exact .scalar rfl
      · trivial
  next => exact .scalar rfl

/-! ## Operands -/

/-- The operand gives well-formed values, as a function at well-formed values. -/
structure Operand.WellFormed (a : Operand) : Prop where
  value : a.value.Gives Value.WellFormed
  function : ∀ f, a.function = some f → ∀ v, v.WellFormed → (f v).Gives Value.WellFormed

section Operands

variable {args : List Operand} (hargs : ∀ a ∈ args, a.WellFormed)
include hargs

namespace Operand

theorem need_wellFormed (m : Method) (i : Nat) : (need m args i).Gives Value.WellFormed := by
  unfold need
  split
  next ha => exact (hargs _ (List.mem_of_getElem? ha)).value
  next => trivial

theorem items_wellFormed (m : Method) :
    (items m args).Gives fun items => ∀ v ∈ items, v.WellFormed := by
  unfold items
  split
  next => trivial
  next =>
    refine (hargs _ List.mem_cons_self).value.bind fun v hv => ?_
    split
    next =>
      cases hv with
      | scalar h => cases h
      | collection hitems => exact hitems
    next =>
      cases hv with
      | scalar h => cases h
      | grouping _ hitems => exact hitems
    next => trivial
    next => trivial

theorem selector_wellFormed (m : Method) :
    (selector m args).Gives fun f => ∀ v, v.WellFormed → (f v).Gives Value.WellFormed := by
  unfold selector
  split
  next => exact (hargs _ (List.mem_cons_of_mem _ List.mem_cons_self)).function _ rfl
  next => trivial

theorem selected_wellFormed (m : Method) :
    (selected m args).Gives fun items => ∀ v ∈ items, v.WellFormed := by
  refine (items_wellFormed hargs m).bind fun items hitems => ?_
  split
  next =>
    exact (selector_wellFormed hargs m).bind fun f hf => .mapM fun v hv => hf v (hitems v hv)
  next => exact hitems

end Operand

theorem Lookup.apply_wellFormed (l : Lookup) : (l.apply args).Gives WellFormed := by
  unfold Lookup.apply
  cases l with
  | containsKey => exact .after fun _ => .after fun _ => .after fun _ => .scalar rfl
  | hasDeclaredProperty =>
    exact .after fun _ => .after fun _ => .after fun _ => .after fun _ => .scalar rfl
  | declaredProperty =>
    exact (Operand.need_wellFormed hargs _ 0).bind fun v hv => .after fun name =>
      v.member_wellFormed hv name
  | dynamicProperty =>
    exact .after fun s => (Operand.need_wellFormed hargs _ 1).bind fun v hv => .after fun name =>
      s.dynamicProperty_wellFormed hv name

end Operands

/-! ## Collections -/

namespace Accumulator

/-- The value that the state keeps, if any, is well-formed. -/
def WellFormed : Accumulator → Prop
  | .extreme _ (some v) _ => v.WellFormed
  | _ => True

theorem update_wellFormed {acc : Accumulator} (hacc : acc.WellFormed) {v : Value} (hv : v.WellFormed) :
    (acc.update v).Gives WellFormed := by
  unfold update
  split
  next => trivial
  next =>
    split_ifs
    · trivial
    · exact Outcome.Meets.after fun _ => trivial
  next =>
    split_ifs
    · trivial
    · split <;> trivial
  next =>
    split_ifs
    · exact hacc
    · split
      next => exact hv
      next =>
        split
        next => trivial
        next =>
          change WellFormed _
          split_ifs
          · exact hv
          · exact hacc

theorem finish_wellFormed {acc : Accumulator} (hacc : acc.WellFormed) :
    acc.finish.Gives Value.WellFormed := by
  unfold finish
  split
  next => exact .scalar rfl
  next => exact Value.ofInt_wellFormed _ _
  next => exact Value.ofInt_wellFormed _ _
  next => exact Value.ofFloat_wellFormed _ _
  next =>
    split_ifs
    · exact .scalar rfl
    · trivial
    · exact Value.ofFloat_wellFormed _ _
  next => exact hacc
  next =>
    split_ifs
    · exact .scalar rfl
    · trivial

theorem run_wellFormed (a : Aggregate) (t : HostType) {values : List Value}
    (hvalues : ∀ v ∈ values, v.WellFormed) : ((start a t).run values).Gives Value.WellFormed := by
  have hstart : (start a t).WellFormed := by cases a <;> trivial
  exact (Outcome.Meets.foldlM hstart fun acc v hv hacc => update_wellFormed hacc (hvalues v hv)).bind
    fun acc hacc => finish_wellFormed hacc

end Accumulator

/-- The result of an aggregate is well-formed; that of one from outside is so whatever its values are. -/
theorem AggregateCode.run_wellFormed [External] (code : AggregateCode) (t : HostType) {values : List Value}
    (hvalues : ∀ v ∈ values, v.WellFormed) : (code.run t values).Gives WellFormed := by
  cases code with
  | builtIn a => exact Accumulator.run_wellFormed a t hvalues
  | provided id => exact .after fun state => .after fun result => result.property

section Items

variable {items : List Value} (hitems : ∀ v ∈ items, v.WellFormed)
include hitems

theorem keepItems_wellFormed (p : Value → Outcome Value) :
    (keepItems p items).Gives fun kept => ∀ v ∈ kept, v.WellFormed := by
  induction items with
  | nil => exact hitems
  | cons v rest ih =>
    obtain ⟨hv, hrest⟩ := List.forall_mem_cons.mp hitems
    refine .after fun keep => (ih hrest).bind fun kept hkept => ?_
    change ∀ w ∈ ite _ _ _, WellFormed w
    split_ifs
    · exact List.forall_mem_cons.mpr ⟨hv, hkept⟩
    · exact hkept

theorem distinctItems_wellFormed : ∀ v ∈ distinctItems items, v.WellFormed := by
  have run : ∀ (items kept : List Value), (∀ v ∈ items, v.WellFormed) → (∀ v ∈ kept, v.WellFormed) →
      ∀ v ∈ items.foldl (fun kept v => if kept.any (·.looselyEquals v) then kept else kept ++ [v]) kept,
        v.WellFormed := by
    intro items
    induction items with
    | nil => exact fun _ _ hkept => hkept
    | cons v rest ih =>
      intro kept hitems hkept
      obtain ⟨hv, hrest⟩ := List.forall_mem_cons.mp hitems
      refine ih _ hrest ?_
      dsimp only
      split_ifs
      · exact hkept
      · exact List.forall_mem_append.mpr ⟨hkept, by simpa using hv⟩
  exact run items [] hitems (by simp)

theorem joinItems_wellFormed : (joinItems items).Gives fun joined => ∀ v ∈ joined, v.WellFormed := by
  induction items with
  | nil => exact hitems
  | cons v rest ih =>
    obtain ⟨hv, hrest⟩ := List.forall_mem_cons.mp hitems
    unfold joinItems
    split
    next h => cases h
    next h =>
      cases h
      refine (ih hrest).bind fun joined hjoined => List.forall_mem_append.mpr ⟨?_, hjoined⟩
      cases hv with
      | scalar h => cases h
      | collection hitems => exact hitems
    next => trivial

omit hitems in
theorem addToGroups_wellFormed {key item : Value} (hkey : key.WellFormed) (hitem : item.WellFormed)
    {groups : List Group}
    (hgroups : ∀ g ∈ groups, g.key.WellFormed ∧ ∀ v ∈ g.items, v.WellFormed) :
    ∀ g ∈ addToGroups key item groups, g.key.WellFormed ∧ ∀ v ∈ g.items, v.WellFormed := by
  induction groups with
  | nil =>
    refine List.forall_mem_cons.mpr ⟨⟨hkey, ?_⟩, by simp⟩
    simpa using hitem
  | cons g rest ih =>
    obtain ⟨hg, hrest⟩ := List.forall_mem_cons.mp hgroups
    unfold addToGroups
    split_ifs
    · refine List.forall_mem_cons.mpr ⟨⟨hg.1, List.forall_mem_append.mpr ⟨hg.2, ?_⟩⟩, hrest⟩
      simpa using hitem
    · exact List.forall_mem_cons.mpr ⟨hg, ih hrest⟩

theorem groupItems_wellFormed {key : Value → Outcome Value}
    (hkey : ∀ v, v.WellFormed → (key v).Gives WellFormed) :
    (groupItems key items).Gives fun groups =>
      ∀ g ∈ groups, g.key.WellFormed ∧ ∀ v ∈ g.items, v.WellFormed :=
  .foldlM (by simp) fun _ v hv hgroups => (hkey v (hitems v hv)).bind fun _ hk =>
    addToGroups_wellFormed hk (hitems v hv) hgroups

end Items

theorem CollectionOperator.apply_wellFormed [External] (op : CollectionOperator) (t : HostType)
    {args : List Operand} (hargs : ∀ a ∈ args, a.WellFormed) : (op.apply t args).Gives WellFormed := by
  have hitems := Operand.items_wellFormed hargs (.collection op)
  have hselector := Operand.selector_wellFormed hargs (.collection op)
  have hselected := Operand.selected_wellFormed hargs (.collection op)
  have haggregate (code : AggregateCode) (t : HostType) :
      (Operand.selected (.collection op) args >>= code.run t).Gives WellFormed :=
    hselected.bind fun _ hvalues => code.run_wellFormed t hvalues
  unfold apply
  cases op with
  | any =>
    refine .after fun items => ?_
    split
    next => exact .after fun _ => .after fun _ => .scalar rfl
    next => exact .scalar rfl
  | all => exact .after fun _ => .after fun _ => .after fun _ => .scalar rfl
  | filter =>
    exact hitems.bind fun _ hitems => .after fun p => (keepItems_wellFormed hitems p).bind fun _ =>
      .collection
  | select => exact hselected.bind fun _ => .collection
  | selectMany =>
    exact hselected.bind fun _ hselected => (joinItems_wellFormed hselected).bind fun _ => .collection
  | groupBy =>
    refine hitems.bind fun _ hitems => hselector.bind fun key hkey =>
      (groupItems_wellFormed hitems hkey).bind fun groups hgroups => .collection fun v hv => ?_
    obtain ⟨g, hg, rfl⟩ := List.mem_map.mp hv
    exact .grouping (hgroups g hg).1 (hgroups g hg).2
  | contains => exact .after fun _ => .after fun _ => .scalar rfl
  | cast target =>
    refine hitems.bind fun _ hitems => ?_
    rw [Value.convertItems_eq_mapM]
    exact (Outcome.Meets.mapM fun v hv => v.convert_wellFormed (hitems v hv) target).bind fun _ =>
      .collection
  | distinct => exact hitems.bind fun _ hitems => .collection (distinctItems_wellFormed hitems)
  | toList => exact hitems.bind fun _ => .collection
  | longCount => exact haggregate (.builtIn .count) _
  | sum => exact haggregate (.builtIn .sum) _
  | average => exact haggregate (.builtIn .average) _
  | min => exact haggregate (.builtIn .min) _
  | max => exact haggregate (.builtIn .max) _
  | custom c => exact haggregate _ _

theorem Method.apply_wellFormed [External] (m : Method) (t : HostType) {args : List Operand}
    (hargs : ∀ a ∈ args, a.WellFormed) : (m.apply t args).Gives WellFormed := by
  cases m with
  | scalar f =>
    exact (Outcome.Meets.mapM fun a ha => (hargs a ha).value).bind fun _ => f.apply_wellFormed
  | collection op => exact op.apply_wellFormed t hargs
  | lookup l => exact l.apply_wellFormed hargs

/-! ## Expressions -/

/-- Parameters have well-formed values. -/
def Env.WellFormed (env : Env) : Prop := ∀ id v, env.lookup id = some v → v.WellFormed

theorem Env.WellFormed.cons {env : Env} (h : env.WellFormed) (id : Nat) {v : Value} (hv : v.WellFormed) :
    Env.WellFormed ((id, v) :: env) := by
  intro key w hw
  rw [List.lookup_cons] at hw
  split at hw
  · cases hw
    exact hv
  · exact h key w hw

namespace Expr

variable [External]

/-- Whether the expression is a lambda. -/
def isLambda : Expr → Bool
  | .lambda .. => true
  | _ => false

theorem operands_cons {e : Expr} (h : e.isLambda = false) (rest : List Expr) (env : Env) :
    operands (e :: rest) env = ⟨e.eval env, none⟩ :: operands rest env := by
  cases e <;> first | rfl | cases h

theorem operands_lambda (l : Lambda) (rest : List Expr) (env : Env) :
    operands (l.toExpr :: rest) env =
      ⟨EvalError.fail .lambdaAsValue, some fun v => l.body.eval ((l.param.id, v) :: env)⟩
        :: operands rest env := rfl

/-- The expression gives well-formed values where parameters have such values. -/
def Sound (e : Expr) : Prop := ∀ env : Env, env.WellFormed → (e.eval env).Gives Value.WellFormed

namespace Sound

variable {e x y z : Expr}

theorem const {v : Value} (t : HostType) (hv : v.WellFormed) : (Expr.const v t).Sound := fun _ _ => hv

theorem captured {v : Value} (name : String) (t : HostType) (hv : v.WellFormed) :
    (Expr.captured name v t).Sound := fun _ _ => hv

theorem param (p : Param) : (Expr.param p).Sound := fun _ henv => .orFail trivial fun v hv => henv p.id v hv

theorem member (m : Member) (h : x.Sound) : (Expr.member x m).Sound := fun env henv =>
  (h env henv).bind fun v hv => v.member_wellFormed hv _

theorem index (h : x.Sound) (y : Expr) : (Expr.index x y).Sound := fun env henv =>
  (h env henv).bind fun v hv => .after fun key => v.entry_wellFormed hv key

theorem binary (op : BinaryOp) (x y : Expr) (lifted : Bool) (t : HostType) :
    (Expr.binary op x y lifted t).Sound := by
  intro env _
  refine .after fun l => ?_
  split_ifs
  · exact op.shortCircuit_wellFormed l _
  · exact .after fun r => op.apply_wellFormed l r lifted t

theorem unary (op : UnaryOp) (x : Expr) (t : HostType) : (Expr.unary op x t).Sound :=
  fun _ _ => .after fun v => op.apply_wellFormed v

theorem convert (t : HostType) (h : x.Sound) : (Expr.convert x t).Sound := fun env henv =>
  (h env henv).bind fun v hv => v.convert_wellFormed hv t

theorem typeIs (x : Expr) (t : HostType) : (Expr.typeIs x t).Sound :=
  fun _ _ => .after fun _ => .scalar rfl

theorem typeAs (t : HostType) (h : x.Sound) : (Expr.typeAs x t).Sound := by
  refine fun env henv => (h env henv).bind fun v hv => ?_
  change Value.WellFormed _
  split_ifs
  · exact hv
  · exact .scalar rfl

theorem cond (test : Expr) (t : HostType) (hx : x.Sound) (hy : y.Sound) :
    (Expr.cond test x y t).Sound := by
  refine fun env henv => .after fun v => ?_
  split
  next => exact hx env henv
  next => exact hy env henv
  next => trivial

theorem container {slots : List (String × Expr)} (h : ∀ s ∈ slots, s.2.Sound) :
    (Expr.container slots).Sound := by
  intro env henv
  have hslots : (evalSlots slots env).Gives fun values => ∀ s ∈ values, s.2.WellFormed := by
    induction slots with
    | nil => exact fun s hs => by cases hs
    | cons s rest ih =>
      obtain ⟨hs, hrest⟩ := List.forall_mem_cons.mp h
      exact (hs env henv).bind fun v hv => (ih hrest).bind fun values hvalues =>
        List.forall_mem_cons.mpr ⟨hv, hvalues⟩
  exact hslots.bind fun _ => .container

theorem wrapper {w : Wrapper Expr} (h : ∀ m e, w.get? m = some e → e.Sound) : (Expr.wrapper w).Sound := by
  intro env henv
  have hmember (o : Option Expr) (ho : ∀ e, o = some e → e.Sound) :
      (evalMember o env).Gives fun r => ∀ v, r = some v → v.WellFormed := by
    cases o with
    | none => exact fun _ h => by cases h
    | some e =>
      refine (ho e rfl env henv).bind fun v hv w hw => ?_
      cases hw
      exact hv
  obtain ⟨kind, g, c, s, i, m⟩ := w
  refine (hmember g (h .groupByContainer)).bind fun _ hg => (hmember c (h .container)).bind fun _ hc =>
    (hmember s (h .source)).bind fun _ hs => (hmember i (h .inst)).bind fun _ hi =>
      (hmember m (h .model)).bind fun _ hm => .wrapper fun member a ha => ?_
  cases member with
  | groupByContainer => exact hg a ha
  | container => exact hc a ha
  | source => exact hs a ha
  | inst => exact hi a ha
  | model => exact hm a ha

/-- An argument of a call: an expression or a lambda. -/
def Argument (e : Expr) : Prop := e.Sound ∧ e.isLambda = false ∨ ∃ l : Lambda, e = l.toExpr ∧ l.body.Sound

/-- **A call of sound arguments is sound.** -/
theorem call (m : Method) (t : HostType) {args : List Expr} (hargs : ∀ e ∈ args, Argument e) :
    (Expr.call m args t).Sound := by
  refine fun env henv => m.apply_wellFormed t ?_
  induction args with
  | nil => exact fun a ha => by cases ha
  | cons e rest ih =>
    obtain ⟨he, hrest⟩ := List.forall_mem_cons.mp hargs
    rcases he with ⟨he, hlambda⟩ | ⟨l, rfl, hl⟩
    · rw [operands_cons hlambda]
      exact List.forall_mem_cons.mpr ⟨⟨he env henv, nofun⟩, ih hrest⟩
    · rw [operands_lambda]
      refine List.forall_mem_cons.mpr ⟨⟨trivial, ?_⟩, ih hrest⟩
      intro f hf v hv
      cases hf
      exact hl _ (henv.cons _ hv)

end Sound

end Expr

end TypedQuery
