import TypedQuery.Proofs.Integrity

/-!
# Free parameters

The parameters that occur in an expression outside the lambdas that bind them. Evaluation asks the
environment for those only, so that an expression whose free parameters all have values does not fail
for want of one.

* `Expr.free`: the free parameters of an expression.
* `Expr.UsesOnly`: an expression whose free parameters are all of a kind.
* `Outcome.Bound`: an outcome that is no failure of a parameter without a value; one lemma for each
  operation on values.
* **`Expr.eval_bound`**: an expression in an environment that has its free parameters.
* **`Expr.eval_congr`**: an expression in environments that give its free parameters the same values.
-/

namespace TypedQuery

namespace Expr

mutual

/-- The free parameters of an expression. A lambda binds its first parameter, which takes the
argument. -/
def free (e : Expr) : List Param :=
  match e with
  | .const .. | .captured .. => []
  | .param p => [p]
  | .member source _ => free source
  | .index source key => free source ++ free key
  | .binary _ left right _ _ => free left ++ free right
  | .unary _ x _ | .convert x _ | .typeIs x _ | .typeAs x _ => free x
  | .cond test ifTrue ifFalse _ => free test ++ (free ifTrue ++ free ifFalse)
  | .call _ args _ => freeOfArgs args
  | .lambda params body => (free body).filter fun p => p ∉ params.take 1
  | .container slots => freeOfSlots slots
  | .wrapper ⟨_, g, c, s, i, m⟩ =>
    freeOfMember g ++ (freeOfMember c ++ (freeOfMember s ++ (freeOfMember i ++ freeOfMember m)))
  | .slot chain _ _ => free chain
termination_by structural e

/-- The free parameters of arguments. -/
def freeOfArgs (args : List Expr) : List Param :=
  match args with
  | [] => []
  | e :: rest => free e ++ freeOfArgs rest
termination_by structural args

/-- The free parameters of slots. -/
def freeOfSlots (slots : List (String × Expr)) : List Param :=
  match slots with
  | [] => []
  | (_, e) :: rest => free e ++ freeOfSlots rest
termination_by structural slots

/-- The free parameters of a member that may be missing. -/
def freeOfMember (member : Option Expr) : List Param :=
  match member with
  | none => []
  | some e => free e
termination_by structural member

end

attribute [local simp] free freeOfArgs freeOfSlots freeOfMember

/-- The free parameters of an expression are all of a kind. -/
def UsesOnly (P : Param → Prop) (e : Expr) : Prop := ∀ p ∈ e.free, P p

variable {P Q : Param → Prop} {e x y z : Expr}

theorem UsesOnly.mono (h : e.UsesOnly P) (hPQ : ∀ p, P p → Q p) : e.UsesOnly Q :=
  fun p hp => hPQ p (h p hp)

theorem usesOnly_false_iff : e.UsesOnly (fun _ => False) ↔ e.free = [] :=
  List.eq_nil_iff_forall_not_mem.symm

@[simp] theorem usesOnly_const (v : Value) (t : HostType) : (const v t).UsesOnly P := nofun

@[simp] theorem usesOnly_captured (name : String) (v : Value) (t : HostType) :
    (captured name v t).UsesOnly P := nofun

@[simp] theorem usesOnly_param (p : Param) : (param p).UsesOnly P ↔ P p := by simp [UsesOnly]

@[simp] theorem usesOnly_member (m : Member) : (member x m).UsesOnly P ↔ x.UsesOnly P := Iff.rfl

@[simp] theorem usesOnly_index : (index x y).UsesOnly P ↔ x.UsesOnly P ∧ y.UsesOnly P :=
  List.forall_mem_append

@[simp] theorem usesOnly_binary (op : BinaryOp) (lifted : Bool) (t : HostType) :
    (binary op x y lifted t).UsesOnly P ↔ x.UsesOnly P ∧ y.UsesOnly P := List.forall_mem_append

@[simp] theorem usesOnly_unary (op : UnaryOp) (t : HostType) :
    (unary op x t).UsesOnly P ↔ x.UsesOnly P := Iff.rfl

@[simp] theorem usesOnly_convert (t : HostType) : (convert x t).UsesOnly P ↔ x.UsesOnly P := Iff.rfl

@[simp] theorem usesOnly_typeIs (t : HostType) : (typeIs x t).UsesOnly P ↔ x.UsesOnly P := Iff.rfl

@[simp] theorem usesOnly_typeAs (t : HostType) : (typeAs x t).UsesOnly P ↔ x.UsesOnly P := Iff.rfl

@[simp] theorem usesOnly_cond (t : HostType) :
    (cond x y z t).UsesOnly P ↔ x.UsesOnly P ∧ y.UsesOnly P ∧ z.UsesOnly P := by
  simp only [UsesOnly, free, List.forall_mem_append]

theorem mem_freeOfArgs {args : List Expr} {p : Param} :
    p ∈ freeOfArgs args ↔ ∃ e ∈ args, p ∈ e.free := by
  induction args with
  | nil => simp
  | cons e rest ih => simp [ih]

@[simp] theorem usesOnly_call (m : Method) (args : List Expr) (t : HostType) :
    (call m args t).UsesOnly P ↔ ∀ e ∈ args, e.UsesOnly P := by
  simp only [UsesOnly, free, mem_freeOfArgs]
  exact ⟨fun h e he p hp => h p ⟨e, he, hp⟩, fun h p ⟨e, he, hp⟩ => h e he p hp⟩

@[simp] theorem usesOnly_mkCollection (op : CollectionOperator) (args : List Expr) :
    (mkCollection op args).UsesOnly P ↔ ∀ e ∈ args, e.UsesOnly P := usesOnly_call _ args _

/-- The parameter of a lambda is bound in its body. -/
@[simp] theorem usesOnly_mkLambda (p : Param) :
    (mkLambda p x).UsesOnly P ↔ x.UsesOnly fun q => q = p ∨ P q := by
  simp only [UsesOnly, mkLambda, free, List.take_succ_cons, List.take_zero, List.mem_singleton,
    List.mem_filter, decide_eq_true_eq]
  exact ⟨fun h q hq => or_iff_not_imp_left.mpr fun hne => h q ⟨hq, hne⟩,
    fun h q ⟨hq, hne⟩ => (h q hq).resolve_left hne⟩

theorem mem_freeOfSlots {slots : List (String × Expr)} {p : Param} :
    p ∈ freeOfSlots slots ↔ ∃ s ∈ slots, p ∈ s.2.free := by
  induction slots with
  | nil => simp
  | cons s rest ih => simp [ih]

@[simp] theorem usesOnly_container (slots : List (String × Expr)) :
    (container slots).UsesOnly P ↔ ∀ s ∈ slots, s.2.UsesOnly P := by
  simp only [UsesOnly, free, mem_freeOfSlots]
  exact ⟨fun h s hs p hp => h p ⟨s, hs, hp⟩, fun h p ⟨s, hs, hp⟩ => h s hs p hp⟩

theorem mem_freeOfMember {member : Option Expr} {p : Param} :
    p ∈ freeOfMember member ↔ ∃ e, member = some e ∧ p ∈ e.free := by
  cases member <;> simp

theorem usesOnly_wrapper {w : Wrapper Expr} :
    (wrapper w).UsesOnly P ↔ ∀ m e, w.get? m = some e → e.UsesOnly P := by
  obtain ⟨kind, g, c, s, i, m⟩ := w
  simp only [UsesOnly, free, List.mem_append, mem_freeOfMember]
  constructor
  · intro h member e he p hp
    cases member with
    | groupByContainer => exact h p (.inl ⟨e, he, hp⟩)
    | container => exact h p (.inr (.inl ⟨e, he, hp⟩))
    | source => exact h p (.inr (.inr (.inl ⟨e, he, hp⟩)))
    | inst => exact h p (.inr (.inr (.inr (.inl ⟨e, he, hp⟩))))
    | model => exact h p (.inr (.inr (.inr (.inr ⟨e, he, hp⟩))))
  · rintro h p (⟨e, he, hp⟩ | ⟨e, he, hp⟩ | ⟨e, he, hp⟩ | ⟨e, he, hp⟩ | ⟨e, he, hp⟩)
    · exact h .groupByContainer e he p hp
    · exact h .container e he p hp
    · exact h .source e he p hp
    · exact h .inst e he p hp
    · exact h .model e he p hp

theorem usesOnly_mkContainer? {slots : List (String × Expr)} (h : ∀ s ∈ slots, s.2.UsesOnly P)
    (he : mkContainer? slots = some e) : e.UsesOnly P := by
  cases slots with
  | nil => cases he
  | cons s rest =>
    cases he
    exact (usesOnly_container _).mpr h

@[simp] theorem usesOnly_slot (name : String) (t : HostType) :
    (slot x name t).UsesOnly P ↔ x.UsesOnly P := Iff.rfl

end Expr

/-! ## Failures for want of a parameter -/

/-- Whether a parameter without a value is the cause of the error. -/
def Error.isUnbound : Error → Bool
  | .evaluation (.unboundParameter _) => true
  | _ => false

namespace Outcome

variable {α β : Type}

/-- The outcome is a result, or a failure of which no parameter without a value is the cause. -/
abbrev Bound (o : Outcome α) : Prop := o.Meets (fun e => e.isUnbound = false) fun _ => True

theorem Bound.bind {o : Outcome α} {f : α → Outcome β} {Q : β → Prop} (ho : o.Bound)
    (hf : ∀ a, (f a).Meets (fun e => e.isUnbound = false) Q) :
    (o >>= f).Meets (fun e => e.isUnbound = false) Q := Meets.bind ho fun a _ => hf a

theorem Bound.map {o : Outcome α} (ho : o.Bound) (f : α → β) : Bound (o.map f) := by
  cases o with
  | error e => exact ho
  | ok a => trivial

theorem Bound.orFail {cause : EvalError} (hcause : (Error.evaluation cause).isUnbound = false)
    (o : Option α) : Bound (TypedQuery.orFail cause o) := Meets.orFail hcause fun _ _ => trivial

theorem Bound.orAbort (o : Option α) : Bound (TypedQuery.orAbort o) := Meets.orAbort rfl fun _ _ => trivial

theorem Bound.mapM {f : α → Outcome β} {as : List α} (hf : ∀ a ∈ as, (f a).Bound) :
    Bound (as.mapM f) := (Meets.mapM hf).mono fun _ _ => trivial

theorem Bound.ne_unboundParameter {o : Outcome α} (ho : o.Bound) (name : String) :
    o ≠ .error (.evaluation (.unboundParameter name)) := by
  rintro rfl
  cases ho

end Outcome

open Outcome (Bound)

/-! ### Conversions -/

namespace Value

theorem ofIntegral_bound (n : Int) (t : HostType) : (ofIntegral n t).Bound := by
  unfold ofIntegral
  split
  · exact .orFail rfl _
  · exact rfl

theorem ofFloat_bound (x : Float) (t : HostType) : (ofFloat x t).Bound := by
  unfold ofFloat
  split
  · exact .orFail rfl _
  · exact .orFail rfl _
  · exact .orFail rfl _
  · exact .orFail rfl _
  · split_ifs
    · exact ofIntegral_bound _ _
    · exact rfl

theorem ofInt_bound (n : Int) (t : HostType) : (ofInt n t).Bound := by
  unfold ofInt
  split
  · exact ofFloat_bound _ _
  · exact ofFloat_bound _ _
  · exact ofFloat_bound _ _
  · split_ifs
    · trivial
    · exact rfl
  · exact .orFail rfl _
  · exact ofIntegral_bound _ _

theorem convertScalar_bound (v : Value) (target : HostType) : (convertScalar v target).Bound := by
  unfold convertScalar
  dsimp only
  split <;> first
    | trivial
    | exact rfl
    | exact .orAbort _
    | split_ifs <;> first | trivial | exact rfl | exact ofInt_bound _ _ | exact ofFloat_bound _ _

mutual

theorem convert_bound (v : Value) (target : HostType) : (v.convert target).Bound := by
  unfold convert
  cases v with
  | null =>
    dsimp only
    split_ifs
    · trivial
    · exact rfl
  | collection items =>
    dsimp only
    split
    next element _ => exact (convertItems_bound items element).map _
    next =>
      split_ifs
      · trivial
      · exact rfl
  | _ =>
    dsimp only
    split_ifs
    · trivial
    · exact convertScalar_bound _ _
termination_by structural v

theorem convertItems_bound (items : List Value) (element : HostType) :
    (convertItems items element).Bound := by
  unfold convertItems
  cases items with
  | nil => trivial
  | cons v rest =>
    have hv := convert_bound v element
    dsimp only
    cases hw : v.convert element with
    | error e =>
      rw [hw] at hv
      exact hv
    | ok w => exact (convertItems_bound rest element).map _
termination_by structural items

end

end Value

/-! ### Operators and functions -/

theorem UnaryOp.apply_bound (op : UnaryOp) (v : Value) : (op.apply v).Bound := by
  unfold UnaryOp.apply
  split
  · trivial
  · trivial
  · exact rfl
  · trivial
  · exact Value.ofInt_bound _ _
  · split
    · exact Value.ofFloat_bound _ _
    · exact rfl

namespace BinaryOp

theorem compareValues_bound (op : BinaryOp) (l r : Value) (lifted : Bool) :
    (op.compareValues l r lifted).Bound := by
  unfold compareValues
  split_ifs
  · trivial
  · split
    · trivial
    · trivial
    · split
      · trivial
      · exact rfl

theorem shortCircuit_bound (op : BinaryOp) (l : Value) {r : Unit → Outcome Value} (hr : (r ()).Bound) :
    (op.shortCircuit l r).Bound := by
  unfold shortCircuit
  split
  · split_ifs
    · trivial
    · refine hr.bind fun v => ?_
      split
      · trivial
      · exact rfl
  · exact rfl

theorem numeric_bound (op : BinaryOp) (l r : Value) (t : HostType) : (op.numeric l r t).Bound := by
  unfold numeric
  split
  · split
    · exact Value.ofInt_bound _ _
    · exact rfl
  · split
    · split
      · exact rfl
      · split
        · exact Value.ofFloat_bound _ _
        · exact rfl
    · exact rfl

theorem apply_bound (op : BinaryOp) (l r : Value) (lifted : Bool) (t : HostType) :
    (op.apply l r lifted t).Bound := by
  have truth (v : Value) : (truthOf v).Bound := .orFail rfl _
  unfold apply
  split_ifs
  · exact (truth l).bind fun _ => (truth r).bind fun _ => trivial
  · exact op.compareValues_bound l r lifted
  · trivial
  · unfold arithmetic
    split
    · exact .orAbort _
    · exact op.numeric_bound l r _

end BinaryOp

theorem ScalarFunction.apply_bound [External] (f : ScalarFunction) (args : List Value) :
    (f.apply args).Bound := by
  have round (mode : Number.Rounding) (v : Value) : (roundValue f mode v).Bound := by
    unfold roundValue
    split
    · trivial
    · exact Value.ofFloat_bound _ _
    · exact rfl
  unfold apply
  split
  · rw [positionOf_eq]
    trivial
  · unfold matchPattern
    split
    · trivial
    · exact rfl
  · exact Value.convert_bound _ _
  · exact Value.convert_bound _ _
  · exact round _ _
  · exact round _ _
  · exact round _ _
  · exact .orFail rfl _

/-! ### Parts -/

namespace Value

theorem member_bound (v : Value) (name : String) : (v.member name).Bound := by
  unfold member
  dsimp only
  split
  · exact rfl
  · exact .orFail rfl _
  · split_ifs
    · trivial
    · exact rfl
  · split
    · trivial
    · exact rfl
  · exact rfl

theorem entry_bound (v key : Value) : (v.entry key).Bound := by
  unfold entry
  split
  · exact .orFail rfl _
  · exact rfl
  · exact rfl

theorem slot_bound (v : Value) (name : String) : (v.slot name).Bound := by
  unfold slot
  split
  · exact .orFail rfl _
  · exact rfl

theorem hasEntry_bound (v key : Value) : (v.hasEntry key).Bound := by
  unfold hasEntry
  split
  · trivial
  · exact rfl
  · exact rfl

end Value

namespace Schema

theorem declaresProperty_bound (s : Schema) (v : Value) (name : String) :
    (s.declaresProperty v name).Bound := by
  unfold declaresProperty
  split
  · split_ifs
    · trivial
    · exact rfl
  · trivial

theorem dynamicProperty_bound (s : Schema) (v : Value) (name : String) :
    (s.dynamicProperty v name).Bound := by
  unfold dynamicProperty
  split
  · trivial
  · split_ifs
    · split <;> trivial
    · exact rfl
  · trivial

end Schema

/-! ### Operands -/

/-- The operand does not fail for want of a parameter, nor does it as a function. -/
structure Operand.Bound (a : Operand) : Prop where
  value : a.value.Bound
  function : ∀ f, a.function = some f → ∀ v, (f v).Bound

section Operands

variable {args : List Operand} (hargs : ∀ a ∈ args, a.Bound)
include hargs

namespace Operand

theorem need_bound (m : Method) (i : Nat) : (need m args i).Bound := by
  unfold need
  split
  next ha => exact (hargs _ (List.mem_of_getElem? ha)).value
  next => exact rfl

theorem items_bound (m : Method) : (items m args).Bound := by
  unfold items
  split
  next => exact rfl
  next =>
    refine (hargs _ List.mem_cons_self).value.bind fun v => ?_
    split
    · trivial
    · trivial
    · exact rfl
    · exact rfl

theorem selector_bound (m : Method) :
    (selector m args).Meets (fun e => e.isUnbound = false) fun f => ∀ v, (f v).Bound := by
  unfold selector
  split
  next => exact (hargs _ (List.mem_cons_of_mem _ List.mem_cons_self)).function _ rfl
  next => exact rfl

theorem selected_bound (m : Method) : (selected m args).Bound := by
  refine (items_bound hargs m).bind fun items => ?_
  split
  next => exact (selector_bound hargs m).bind fun f hf => Outcome.Bound.mapM fun v _ => hf v
  next => trivial

theorem needString_bound (m : Method) (i : Nat) : (needString m args i).Bound := by
  refine (need_bound hargs m i).bind fun v => ?_
  split
  · trivial
  · exact rfl

theorem needModel_bound (m : Method) (i : Nat) : (needModel m args i).Bound := by
  refine (need_bound hargs m i).bind fun v => ?_
  split
  · trivial
  · exact rfl

end Operand

theorem Lookup.apply_bound (l : Lookup) : (l.apply args).Bound := by
  have need := Operand.need_bound hargs (.lookup l)
  have needString := Operand.needString_bound hargs (.lookup l)
  have needModel := Operand.needModel_bound hargs (.lookup l)
  unfold Lookup.apply
  cases l with
  | containsKey =>
    exact (need 0).bind fun bag => (need 1).bind fun key => (bag.hasEntry_bound key).bind fun _ => trivial
  | hasDeclaredProperty =>
    exact (needModel 0).bind fun s => (need 1).bind fun v => (needString 2).bind fun name =>
      (s.declaresProperty_bound v name).bind fun _ => trivial
  | declaredProperty => exact (need 0).bind fun v => (needString 1).bind fun name => v.member_bound name
  | dynamicProperty =>
    exact (needModel 0).bind fun s => (need 1).bind fun v => (needString 2).bind fun name =>
      s.dynamicProperty_bound v name

end Operands

/-! ### Collections -/

namespace Accumulator

theorem update_bound (acc : Accumulator) (v : Value) : (acc.update v).Bound := by
  unfold update
  split
  · trivial
  · split_ifs
    · trivial
    · refine Outcome.Bound.map ?_ _
      unfold addTo
      split
      · trivial
      · trivial
      · split
        · exact rfl
        · split <;> trivial
  · split_ifs
    · trivial
    · split
      · trivial
      · exact rfl
  · split_ifs
    · trivial
    · split
      · trivial
      · split
        · exact rfl
        · trivial

theorem finish_bound (acc : Accumulator) : acc.finish.Bound := by
  unfold finish
  split
  · trivial
  · exact Value.ofInt_bound _ _
  · exact Value.ofInt_bound _ _
  · exact Value.ofFloat_bound _ _
  · split_ifs
    · trivial
    · exact rfl
    · exact Value.ofFloat_bound _ _
  · trivial
  · split_ifs
    · trivial
    · exact rfl

theorem run_bound (acc : Accumulator) (values : List Value) : (acc.run values).Bound :=
  (Outcome.Meets.foldlM (P := fun _ => True) trivial fun acc v _ _ => update_bound acc v).bind
    fun acc _ => finish_bound acc

end Accumulator

theorem External.outcome_bound {α : Type} (result : Except String α) : (outcome result).Bound := by
  cases result with
  | error reason => exact rfl
  | ok a => trivial

theorem AggregateCode.run_bound [External] (code : AggregateCode) (t : HostType) (values : List Value) :
    (code.run t values).Bound := by
  cases code with
  | builtIn a => exact Accumulator.run_bound _ values
  | provided id =>
    exact (Outcome.Meets.foldlM (P := fun _ => True) trivial fun _ _ _ _ => External.outcome_bound _).bind
      fun _ _ => (External.outcome_bound _).bind fun _ => trivial

section Items

variable {p : Value → Outcome Value} (hp : ∀ v, (p v).Bound) (items : List Value)
include hp

theorem someItem_bound : (someItem p items).Bound := by
  induction items with
  | nil => trivial
  | cons v rest ih =>
    refine (hp v).bind fun w => ?_
    split_ifs
    · trivial
    · exact ih

theorem everyItem_bound : (everyItem p items).Bound := by
  induction items with
  | nil => trivial
  | cons v rest ih =>
    refine (hp v).bind fun w => ?_
    split_ifs
    · exact ih
    · trivial

theorem keepItems_bound : (keepItems p items).Bound := by
  induction items with
  | nil => trivial
  | cons v rest ih => exact (hp v).bind fun _ => ih.bind fun _ => trivial

theorem groupItems_bound : (groupItems p items).Bound :=
  Outcome.Meets.foldlM trivial fun _ v _ _ => (hp v).bind fun _ => trivial

omit hp in
theorem joinItems_bound : (joinItems items).Bound := by
  induction items with
  | nil => trivial
  | cons v rest ih =>
    unfold joinItems
    split
    next h => cases h
    next h =>
      cases h
      exact ih.bind fun _ => trivial
    next => exact rfl

end Items

theorem CollectionOperator.apply_bound [External] (op : CollectionOperator) (t : HostType)
    {args : List Operand} (hargs : ∀ a ∈ args, a.Bound) : (op.apply t args).Bound := by
  have hitems := Operand.items_bound hargs (.collection op)
  have hselector := Operand.selector_bound hargs (.collection op)
  have hselected := Operand.selected_bound hargs (.collection op)
  have haggregate (code : AggregateCode) (t : HostType) :
      (Operand.selected (.collection op) args >>= code.run t).Bound :=
    hselected.bind fun values => code.run_bound t values
  unfold apply
  cases op with
  | any =>
    refine hitems.bind fun items => ?_
    split
    next => exact hselector.bind fun p hp => (someItem_bound hp items).bind fun _ => trivial
    next => trivial
  | all =>
    exact hitems.bind fun items => hselector.bind fun p hp =>
      (everyItem_bound hp items).bind fun _ => trivial
  | filter =>
    exact hitems.bind fun items => hselector.bind fun p hp =>
      (keepItems_bound hp items).bind fun _ => trivial
  | select => exact hselected.bind fun _ => trivial
  | selectMany => exact hselected.bind fun items => (joinItems_bound items).bind fun _ => trivial
  | groupBy =>
    exact hitems.bind fun items => hselector.bind fun p hp =>
      (groupItems_bound hp items).bind fun _ => trivial
  | contains =>
    exact hitems.bind fun _ => (Operand.need_bound hargs _ 1).bind fun _ => trivial
  | cast target =>
    exact hitems.bind fun items => (Value.convertItems_bound items target).bind fun _ => trivial
  | distinct => exact hitems.bind fun _ => trivial
  | toList => exact hitems.bind fun _ => trivial
  | longCount => exact haggregate (.builtIn .count) _
  | sum => exact haggregate (.builtIn .sum) _
  | average => exact haggregate (.builtIn .average) _
  | min => exact haggregate (.builtIn .min) _
  | max => exact haggregate (.builtIn .max) _
  | custom c => exact haggregate _ _

theorem Method.apply_bound [External] (m : Method) (t : HostType) {args : List Operand}
    (hargs : ∀ a ∈ args, a.Bound) : (m.apply t args).Bound := by
  cases m with
  | scalar f => exact (Outcome.Bound.mapM fun a ha => (hargs a ha).value).bind fun _ => f.apply_bound _
  | collection op => exact op.apply_bound t hargs
  | lookup l => exact l.apply_bound hargs

/-! ## Expressions -/

/-- The parameters that have values in an environment. -/
def Env.Has (env : Env) (p : Param) : Prop := (env.lookup p.id).isSome

theorem Env.has_cons {env : Env} {p q : Param} (v : Value) (h : q = p ∨ env.Has q) :
    Env.Has ((p.id, v) :: env) q := by
  unfold Env.Has
  rw [List.lookup_cons]
  rcases h with rfl | h
  · simp
  · split
    · rfl
    · exact h

namespace Expr

variable [External]

mutual

/-- **An expression whose free parameters have values does not fail for want of one.** -/
theorem eval_bound (e : Expr) (env : Env) (h : e.UsesOnly env.Has) : (e.eval env).Bound := by
  cases e with
  | const v t => trivial
  | captured name v t => trivial
  | param p =>
    obtain ⟨v, hv⟩ := Option.isSome_iff_exists.mp ((usesOnly_param p).mp h)
    simp only [eval, hv]
    trivial
  | member source m => exact (eval_bound source env h).bind fun v => v.member_bound _
  | index source key =>
    obtain ⟨hs, hk⟩ := usesOnly_index.mp h
    exact (eval_bound source env hs).bind fun v => (eval_bound key env hk).bind fun k => v.entry_bound k
  | binary op left right lifted t =>
    obtain ⟨hl, hr⟩ := (usesOnly_binary op lifted t).mp h
    refine (eval_bound left env hl).bind fun l => ?_
    split_ifs
    · exact op.shortCircuit_bound l (eval_bound right env hr)
    · exact (eval_bound right env hr).bind fun r => op.apply_bound l r lifted t
  | unary op x t => exact (eval_bound x env h).bind fun v => op.apply_bound v
  | convert x t => exact (eval_bound x env h).bind fun v => v.convert_bound t
  | typeIs x t => exact (eval_bound x env h).bind fun _ => trivial
  | typeAs x t => exact (eval_bound x env h).bind fun _ => trivial
  | cond test ifTrue ifFalse t =>
    obtain ⟨htest, htrue, hfalse⟩ := (usesOnly_cond t).mp h
    refine (eval_bound test env htest).bind fun v => ?_
    split
    · exact eval_bound ifTrue env htrue
    · exact eval_bound ifFalse env hfalse
    · exact rfl
  | call m args t =>
    exact m.apply_bound t (operands_bound args env ((usesOnly_call m args t).mp h))
  | lambda params body => exact rfl
  | container slots =>
    exact (evalSlots_bound slots env ((usesOnly_container slots).mp h)).bind fun _ => trivial
  | wrapper w =>
    obtain ⟨kind, g, c, s, i, m⟩ := w
    have hmember := usesOnly_wrapper.mp h
    exact (evalMember_bound g env (hmember .groupByContainer)).bind fun _ =>
      (evalMember_bound c env (hmember .container)).bind fun _ =>
        (evalMember_bound s env (hmember .source)).bind fun _ =>
          (evalMember_bound i env (hmember .inst)).bind fun _ =>
            (evalMember_bound m env (hmember .model)).bind fun _ => trivial
  | slot chain name t => exact (eval_bound chain env h).bind fun v => v.slot_bound name
termination_by structural e

theorem operands_bound (args : List Expr) (env : Env) (h : ∀ e ∈ args, e.UsesOnly env.Has) :
    ∀ a ∈ operands args env, a.Bound := by
  cases args with
  | nil => nofun
  | cons e rest =>
    obtain ⟨he, hrest⟩ := List.forall_mem_cons.mp h
    cases hlambda : e.isLambda with
    | false =>
      rw [operands_cons hlambda]
      exact List.forall_mem_cons.mpr ⟨⟨eval_bound e env he, nofun⟩, operands_bound rest env hrest⟩
    | true =>
      cases e with
      | lambda params body =>
        refine List.forall_mem_cons.mpr ⟨⟨rfl, fun f hf v => ?_⟩, operands_bound rest env hrest⟩
        cases hf
        cases params with
        | nil => exact rfl
        | cons p ps =>
          have hbody := (usesOnly_mkLambda (x := body) p).mp he
          exact eval_bound body ((p.id, v) :: env) (hbody.mono fun q => Env.has_cons v)
      | _ => cases hlambda
termination_by structural args

theorem evalSlots_bound (slots : List (String × Expr)) (env : Env)
    (h : ∀ s ∈ slots, s.2.UsesOnly env.Has) : (evalSlots slots env).Bound := by
  cases slots with
  | nil => trivial
  | cons s rest =>
    obtain ⟨name, e⟩ := s
    obtain ⟨he, hrest⟩ := List.forall_mem_cons.mp h
    exact (eval_bound e env he).bind fun _ => (evalSlots_bound rest env hrest).bind fun _ => trivial
termination_by structural slots

theorem evalMember_bound (member : Option Expr) (env : Env)
    (h : ∀ e, member = some e → e.UsesOnly env.Has) : (evalMember member env).Bound := by
  cases member with
  | none => trivial
  | some e => exact (eval_bound e env (h e rfl)).bind fun _ => trivial
termination_by structural member

end

/-! ## Values of the free parameters -/

mutual

/-- **The value of an expression depends on its free parameters only.** -/
theorem eval_congr (e : Expr) {env₁ env₂ : Env}
    (h : e.UsesOnly fun p => env₁.lookup p.id = env₂.lookup p.id) : e.eval env₁ = e.eval env₂ := by
  cases e with
  | const v t | captured name v t => rfl
  | param p => rw [eval, eval, (usesOnly_param p).mp h]
  | member source m => rw [eval, eval, eval_congr source h]
  | index source key =>
    obtain ⟨hs, hk⟩ := usesOnly_index.mp h
    rw [eval, eval, eval_congr source hs, eval_congr key hk]
  | binary op left right lifted t =>
    obtain ⟨hl, hr⟩ := (usesOnly_binary op lifted t).mp h
    rw [eval, eval, eval_congr left hl, eval_congr right hr]
  | unary op x t => rw [eval, eval, eval_congr x h]
  | convert x t => rw [eval, eval, eval_congr x h]
  | typeIs x t => rw [eval, eval, eval_congr x h]
  | typeAs x t => rw [eval, eval, eval_congr x h]
  | cond test ifTrue ifFalse t =>
    obtain ⟨htest, htrue, hfalse⟩ := (usesOnly_cond t).mp h
    rw [eval, eval, eval_congr test htest, eval_congr ifTrue htrue, eval_congr ifFalse hfalse]
  | call m args t => rw [eval, eval, operands_congr args ((usesOnly_call m args t).mp h)]
  | lambda params body => rfl
  | container slots => rw [eval, eval, evalSlots_congr slots ((usesOnly_container slots).mp h)]
  | wrapper w =>
    obtain ⟨kind, g, c, s, i, m⟩ := w
    have hmember := usesOnly_wrapper.mp h
    rw [eval, eval, evalMember_congr g (hmember .groupByContainer), evalMember_congr c (hmember .container),
      evalMember_congr s (hmember .source), evalMember_congr i (hmember .inst),
      evalMember_congr m (hmember .model)]
  | slot chain name t => rw [eval, eval, eval_congr chain h]
termination_by structural e

theorem operands_congr (args : List Expr) {env₁ env₂ : Env}
    (h : ∀ e ∈ args, e.UsesOnly fun p => env₁.lookup p.id = env₂.lookup p.id) :
    operands args env₁ = operands args env₂ := by
  cases args with
  | nil => rfl
  | cons e rest =>
    obtain ⟨he, hrest⟩ := List.forall_mem_cons.mp h
    cases hlambda : e.isLambda with
    | false => rw [operands_cons hlambda, operands_cons hlambda, eval_congr e he, operands_congr rest hrest]
    | true =>
      cases e with
      | lambda params body =>
        rw [operands, operands, operands_congr rest hrest]
        congr 3
        funext v
        cases params with
        | nil => rfl
        | cons p ps =>
          have hbody := (usesOnly_mkLambda (x := body) p).mp he
          refine eval_congr body (hbody.mono fun q hq => ?_)
          rw [List.lookup_cons, List.lookup_cons]
          rcases hq with rfl | hq
          · simp
          · rw [hq]
      | _ => cases hlambda
termination_by structural args

theorem evalSlots_congr (slots : List (String × Expr)) {env₁ env₂ : Env}
    (h : ∀ s ∈ slots, s.2.UsesOnly fun p => env₁.lookup p.id = env₂.lookup p.id) :
    evalSlots slots env₁ = evalSlots slots env₂ := by
  cases slots with
  | nil => rfl
  | cons s rest =>
    obtain ⟨name, e⟩ := s
    obtain ⟨he, hrest⟩ := List.forall_mem_cons.mp h
    rw [evalSlots, evalSlots, eval_congr e he, evalSlots_congr rest hrest]
termination_by structural slots

theorem evalMember_congr (member : Option Expr) {env₁ env₂ : Env}
    (h : ∀ e, member = some e → e.UsesOnly fun p => env₁.lookup p.id = env₂.lookup p.id) :
    evalMember member env₁ = evalMember member env₂ := by
  cases member with
  | none => rfl
  | some e => rw [evalMember, evalMember, eval_congr e (h e rfl)]
termination_by structural member

end

end Expr

end TypedQuery
