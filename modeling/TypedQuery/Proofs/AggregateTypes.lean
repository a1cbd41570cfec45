import TypedQuery.Proofs.ItemOrder
import TypedQuery.Proofs.OperatorTypes

/-!
# Types of aggregates

An aggregate of values of its input type is a value of its result type, unless a number is out of
range. Sums and averages meet numbers only, least and greatest values are looked for among values
that have an order, and where the result has no null some value of the group is there.

* `Aggregate.run_inRange`: the aggregate of a list of values of a type.
* **`accepted_aggregates_are_type_safe`**: aggregates of a property as they are bound.
* `least_line_fails`: a type that is nullable around a record.
-/

namespace TypedQuery

/-- Whether a label does not stand for an aggregate of the application. -/
def Schema.IsBuiltIn (s : Schema) (label : String) : Prop :=
  ∀ code, Entries.get? s.aggregates (Text.asciiLower label) = some code → ∃ a, code = .builtIn a

variable {s : Schema} {values : List Value}

namespace HostType

theorem isNumeric_of_hasSum {t : HostType} (h : t.hasSum = true) : t.isNumeric = true := by
  unfold hasSum at h
  unfold isNumeric
  split at h <;> simp_all

theorem isNumeric_of_averageType? {t r : HostType} (h : t.averageType? = some r) :
    t.isNumeric = true ∧ r.isNumeric = true ∧ (t.isNullable = true → r.isNullable = true) := by
  obtain ⟨u, hu, rfl⟩ := Option.map_eq_some_iff.mp h
  obtain ⟨ht, hu⟩ : t.isNumeric = true ∧ u.isNumeric = true := by
    unfold isNumeric
    split at hu <;> cases hu <;> simp_all [nonNullable]
  split
  next => exact ⟨ht, by rwa [isNumeric, nonNullable_toNullable], fun _ => isNullable_toNullable u⟩
  next hnullable =>
    refine ⟨ht, hu, fun hnull => ?_⟩
    cases t <;> first | (cases ht; done) | (cases hnull; done) | exact absurd rfl hnullable

end HostType

theorem Schema.admits_of_isNumeric {t : HostType} {v : Value} (ht : t.isNumeric = true)
    (hv : v.isInstanceOf t = true) : s.admits t v = true := by
  have hnumber := Value.isNumber_of_isInstanceOf hv ht
  rwa [admits_of_isPlain (by cases v <;> first | rfl | cases hnumber)]

/-! ## Runs on values of a type -/

namespace Accumulator

theorem asFloat?_of_isNumber {v : Value} (h : v.isNumber = true) : ∃ x, v.asFloat? = some x := by
  cases v <;> first | exact ⟨_, rfl⟩ | cases h

theorem addTo_isNumber (total : PartialSum) {v : Value} (hv : v.isNumber = true) :
    ∃ next, addTo total v = .ok next := by
  obtain ⟨x, hx⟩ := asFloat?_of_isNumber hv
  unfold addTo
  split
  · exact ⟨_, rfl⟩
  · exact ⟨_, rfl⟩
  · rw [hx]
    cases total <;> exact ⟨_, rfl⟩

/-- A sum of numbers. -/
theorem run_sum_inRange {result : HostType} (hresult : result.isNumeric = true)
    (hvalues : ∀ v ∈ values, v.isNull = true ∨ v.isNumber = true) :
    ((start .sum result).run values).InRange fun v => v.isInstanceOf result = true := by
  obtain ⟨last, hlast, total, rfl⟩ := state_of_step (start .sum result) values
    (fun _ acc => ∃ total, acc = .sum total result) ⟨_, rfl⟩ (by
      rintro seen v acc hpre ⟨total, rfl⟩
      cases hnull : v.isNull with
      | true => exact ⟨.sum total result, by simp [update, hnull], total, rfl⟩
      | false =>
        have hv := (hvalues v (hpre.subset (by simp))).resolve_left (by simp [hnull])
        obtain ⟨next, hnext⟩ := addTo_isNumber total hv
        exact ⟨.sum next result, by simp [update, hnull, hnext, Except.map], _, rfl⟩)
  unfold run
  rw [hlast]
  cases total with
  | empty => exact Value.ofInt_inRange 0 hresult
  | exact n => exact Value.ofInt_inRange n hresult
  | rounded x => exact Value.ofFloat_inRange x hresult

/-- An average of numbers, of which there is one unless the result may be null. -/
theorem run_average_inRange {result : HostType} (hresult : result.isNumeric = true)
    (hvalues : ∀ v ∈ values, v.isNull = true ∨ v.isNumber = true)
    (hsome : result.isNullable = true ∨ ∃ v ∈ values, v.isNull = false) :
    ((start .average result).run values).InRange fun v => s.admits result v = true := by
  obtain ⟨last, hlast, total, n, rfl, hnone⟩ := state_of_step (start .average result) values
    (fun seen acc => ∃ total n, acc = .average total n result ∧
      (n = 0 → ∀ v ∈ seen, v.isNull = true)) ⟨_, _, rfl, by simp⟩ (by
      rintro seen v acc hpre ⟨total, n, rfl, hnone⟩
      cases hnull : v.isNull with
      | true =>
        refine ⟨.average total n result, by simp [update, hnull], total, n, rfl, fun hn => ?_⟩
        exact List.forall_mem_append.mpr ⟨hnone hn, by simpa using hnull⟩
      | false =>
        have hv := (hvalues v (hpre.subset (by simp))).resolve_left (by simp [hnull])
        obtain ⟨x, hx⟩ := asFloat?_of_isNumber hv
        exact ⟨.average (total + x) (n + 1) result, by simp [update, hnull, hx], _, _, rfl,
          by simp⟩)
  unfold run
  rw [hlast]
  change Outcome.InRange _ (if n = 0 then
    if result.isNullable then .ok .null else EvalError.fail .emptyAverage
    else Value.ofFloat (total / Float.ofNat n) result)
  by_cases hn : n = 0
  · have hnullable : result.isNullable = true := by
      refine hsome.resolve_right ?_
      rintro ⟨v, hv, hnull⟩
      rw [hnone hn v hv] at hnull
      cases hnull
    rw [if_pos hn, if_pos hnullable]
    exact hnullable
  · rw [if_neg hn]
    refine (Value.ofFloat_inRange _ hresult).mono fun v hv => ?_
    exact Schema.admits_of_isNumeric hresult hv

/-- A least or greatest value is one of the values, if these have an order. -/
theorem run_extreme_mem {better : Ordering} {result : HostType} (hbetter : better ≠ .eq)
    (hcomparable : Comparable values)
    (hsome : result.isNullable = true ∨ ∃ v ∈ values, v.isNull = false) :
    ∃ v, (extreme better none result).run values = .ok v ∧
      (v ∈ values ∨ v = .null ∧ result.isNullable = true) := by
  rcases run_extreme hbetter hcomparable result with ⟨v, hmem, -, hrun, -⟩ | ⟨hnull, hrun⟩
  · exact ⟨v, hrun, .inl hmem⟩
  · have hnullable : result.isNullable = true := by
      refine hsome.resolve_right ?_
      rintro ⟨v, hv, hv'⟩
      rw [hnull v hv] at hv'
      cases hv'
    exact ⟨.null, by rw [hrun, if_pos hnullable], .inr ⟨rfl, hnullable⟩⟩

end Accumulator

/-! ## Aggregates of values of a type -/

section Typed

variable {t result : HostType} (hvalues : ∀ v ∈ values, s.admits t v = true)
include hvalues

theorem isNumber_of_admits (ht : t.isNumeric = true) :
    ∀ v ∈ values, v.isNull = true ∨ v.isNumber = true := by
  intro v hv
  cases hnull : v.isNull with
  | true => exact .inl rfl
  | false =>
    have hinstance := Schema.isInstanceOf_of_admits (hvalues v hv) hnull
    exact .inr (Value.isNumber_of_isInstanceOf hinstance ht)

theorem comparable_of_admits (ht : t.isOrdered = true) : Comparable values := by
  refine List.Pairwise.imp_of_mem (fun ha hb _ => ?_)
    (List.pairwise_of_forall fun _ _ => True.intro)
  have hinstance {v : Value} (hv : v ∈ values.filter (!·.isNull)) : v.isInstanceOf t = true := by
    obtain ⟨hmem, hnull⟩ := List.mem_filter.mp hv
    exact Schema.isInstanceOf_of_admits (hvalues v hmem) (by simpa using hnull)
  exact Option.isSome_iff_exists.mpr (Value.compare?_isSome (hinstance ha) (hinstance hb) ht)

/-- Where a type has no null, a value of the type is not null. -/
theorem exists_not_null (hne : values ≠ []) (ht : t.isNullable = true → result.isNullable = true) :
    result.isNullable = true ∨ ∃ v ∈ values, v.isNull = false := by
  obtain ⟨v, hv⟩ := List.exists_mem_of_ne_nil values hne
  cases hnull : v.isNull with
  | true => exact .inl (ht (Schema.isNullable_of_admits (hvalues v hv) hnull))
  | false => exact .inr ⟨v, hv, hnull⟩

theorem run_extreme_inRange {better : Ordering} (hbetter : better ≠ .eq) (ht : t.isOrdered = true)
    (hne : values ≠ []) :
    ((Accumulator.extreme better none t).run values).InRange fun v => s.admits t v = true := by
  obtain ⟨v, hrun, hv⟩ := Accumulator.run_extreme_mem hbetter
    (comparable_of_admits hvalues ht) (exists_not_null hvalues hne id)
  rw [hrun]
  rcases hv with hv | ⟨rfl, hnull⟩
  · exact hvalues v hv
  · exact hnull

/-- **An aggregate of values of its input type** is a value of its result type. -/
theorem Aggregate.run_inRange {a : Aggregate} (hresult : a.resultType? t = some result)
    (hordered : a = .min ∨ a = .max → t.isOrdered = true) (hne : values ≠ []) :
    ((Accumulator.start a result).run values).InRange fun v => s.admits result v = true := by
  cases a with
  | count =>
    cases hresult
    rw [Accumulator.run_count]
    rfl
  | sum =>
    obtain ⟨hsum, rfl⟩ : t.hasSum = true ∧ t = result := by simpa [resultType?] using hresult
    have ht := HostType.isNumeric_of_hasSum hsum
    exact (Accumulator.run_sum_inRange ht (isNumber_of_admits hvalues ht)).mono fun v hv =>
      Schema.admits_of_isNumeric ht hv
  | average =>
    obtain ⟨ht, hnumeric, hnull⟩ := HostType.isNumeric_of_averageType? hresult
    exact Accumulator.run_average_inRange hnumeric (isNumber_of_admits hvalues ht)
      (exists_not_null hvalues hne hnull)
  | min =>
    obtain ⟨-, rfl⟩ : isOrderable t = true ∧ t = result := by simpa [resultType?] using hresult
    exact run_extreme_inRange hvalues (by decide) (hordered (.inl rfl)) hne
  | max =>
    obtain ⟨-, rfl⟩ : isOrderable t = true ∧ t = result := by simpa [resultType?] using hresult
    exact run_extreme_inRange hvalues (by decide) (hordered (.inr rfl)) hne

end Typed

/-! ## Aggregates of a group -/

theorem HostType.exists_of_isNarrow {t : HostType} (h : t.isNarrow = true) :
    ∃ w, t.nonNullable = .int w ∧ ∀ n, w.Holds n → IntWidth.int32.Holds n := by
  unfold isNarrow at h
  split at h
  case h_5 => cases h
  all_goals
    refine ⟨_, ‹_›, fun n hn => ?_⟩
    simp only [IntWidth.Holds, IntWidth.least, IntWidth.greatest] at hn ⊢
    omega

/-- The types of which the least and the greatest value are taken. -/
theorem isOrdered_of_extreme {t : HostType} (htype : t ∉ [HostType.object, .xml, .charArray])
    (hstructured : t.isStructured = false)
    (hnullable : t.isNullableValueType = true → t.isOrdered = true) : t.isOrdered = true := by
  cases t <;> first | rfl | (cases hstructured; done) | exact hnullable rfl | simp at htype

/-- A value of a type is added as one of the type of its summands. -/
theorem asSummand_of_admits {t : HostType} {v : Value} (hobject : t.isObject = false)
    (hv : s.admits t v = true) :
    ∃ w, Value.asSummand t v = .ok w ∧ s.admits t.summandType w = true := by
  unfold Value.asSummand HostType.summandType
  rw [hobject]
  by_cases hnarrow : t.isNarrow = true
  · obtain ⟨w, hw, hfits⟩ := HostType.exists_of_isNarrow hnarrow
    have htarget : ((HostType.int .int32).nullableLike t).nonNullable = .int .int32 :=
      HostType.nonNullable_nullableLike _ t
    simp only [hnarrow, Bool.or_true, if_true, Bool.false_eq_true, if_false]
    cases hnull : v.isNull with
    | true =>
      obtain rfl := Value.eq_null hnull
      have hnullable : ((HostType.int .int32).nullableLike t).isNullable = true := by
        cases t <;> first | rfl | (cases hw; done) | cases hv
      exact ⟨.null, by rw [Value.convert, if_pos hnullable], hnullable⟩
    | false =>
      obtain ⟨n, hn, rfl⟩ := Value.exists_int_of_isInstanceOf (Schema.isInstanceOf_of_admits hv hnull) hw
      refine ⟨_, Value.convert_int htarget (hfits n hn), ?_⟩
      rw [Schema.admits_of_isPlain rfl, Value.isInstanceOf_congr (u := .int .int32) _ htarget]
      rfl
  · simp [hnarrow, hv]

/-- The values of an expression at some items. -/
theorem exists_values {f : Value → Outcome Value} {P : Value → Prop} {items : List Value}
    (h : ∀ v ∈ items, ∃ w, f v = .ok w ∧ P w) :
    ∃ ws, items.mapM f = .ok ws ∧ ws.length = items.length ∧ ∀ w ∈ ws, P w := by
  obtain ⟨ws, hws⟩ := Outcome.exists_mapM_eq_ok fun v hv => (h v hv).imp fun _ hw => hw.1
  have hitems := Outcome.forall₂_of_mapM hws
  refine ⟨ws, hws, hitems.length_eq.symm, fun w hw => ?_⟩
  obtain ⟨v, hv, hvw⟩ := Outcome.forall₂_mem hitems.flip hw
  obtain ⟨w', hw', hP⟩ := h v hv
  cases hw'.symm.trans hvw
  exact hP

/-- Whether an aggregate may look for a least or a greatest value. -/
def AggregationMethod.comparesValues : AggregationMethod → Bool
  | .min | .max | .custom _ => true
  | _ => false

namespace PropertyAggregate

variable [External]

section Group

variable {group e slot : Expr} {p : Param} {env : Env} {key : Value} {items : List Value}
  (hgroup : group.isLambda = false) (heval : group.eval env = .ok (.grouping key items))
include hgroup heval

/-- A call with a function on a group. -/
theorem call_eval (op : CollectionOperator) (body : Expr) :
    ∃ args, (Expr.mkCollection op [group, .mkLambda p body]).eval env =
        op.apply (op.resultType [group, .mkLambda p body]) args ∧
      ∀ m, Operand.selected m args = items.mapM fun v => body.eval ((p.id, v) :: env) := by
  refine ⟨_, rfl, fun m => ?_⟩
  rw [Expr.operands_cons hgroup, heval]
  rfl

variable (hitems : items ≠ [])
  (hinput : ∀ v ∈ items, ∃ w, e.eval ((p.id, v) :: env) = .ok w ∧ s.admits e.type w = true)
include hitems hinput

theorem call_inRange {op : CollectionOperator} {acc : Accumulator}
    (happly : ∀ args, op.apply (op.resultType [group, .mkLambda p e]) args =
      Operand.selected (.collection op) args >>= acc.run)
    (hrun : ∀ values, values ≠ [] → (∀ v ∈ values, s.admits e.type v = true) →
      (acc.run values).InRange fun v => s.admits (op.resultType [group, .mkLambda p e]) v = true) :
    ((Expr.mkCollection op [group, .mkLambda p e]).eval env).InRange fun v =>
      s.admits (Expr.mkCollection op [group, .mkLambda p e]).type v = true := by
  obtain ⟨args, hcall, hselected⟩ := call_eval hgroup heval op e (p := p)
  obtain ⟨values, hvalues, hlength, hadmits⟩ := exists_values hinput
  rw [hcall, happly, hselected, hvalues]
  have hne : values ≠ [] := by
    rintro rfl
    exact hitems (List.length_eq_zero_iff.mp hlength.symm)
  exact hrun values hne hadmits

theorem total_inRange {a : PropertyAggregate} {op : CollectionOperator} {m : Aggregate}
    {supported : HostType → Bool} (hobject : e.type.isObject = false)
    (h : a.total op supported group p e = .ok slot)
    (happly : ∀ type args, op.apply type args =
      Operand.selected (.collection op) args >>= (Accumulator.start m type).run)
    (hresult : supported e.type.summandType = true →
      m.resultType? e.type.summandType = some (op.resultType [group, .mkLambda p (summand e)]))
    (hextreme : m ≠ .min ∧ m ≠ .max) :
    (slot.eval env).InRange fun v => s.admits slot.type v = true := by
  have hsummands : ∀ v ∈ items, ∃ w, (summand e).eval ((p.id, v) :: env) = .ok w ∧
      s.admits (summand e).type w = true := by
    intro v hv
    obtain ⟨w, hw, hadmits⟩ := hinput v hv
    obtain ⟨u, hu, hadmits⟩ := asSummand_of_admits hobject hadmits
    exact ⟨u, by rw [summand_eval, hw]; exact hu, by rwa [summand_type]⟩
  unfold total at h
  dsimp only at h
  rw [hobject] at h
  split at h
  next hsupported =>
    cases h
    refine call_inRange hgroup heval hitems hsummands (happly _) fun values hne hvalues => ?_
    rw [summand_type] at hvalues hsupported
    exact Aggregate.run_inRange hvalues (hresult hsupported) (by simp [hextreme]) hne
  next => cases h

theorem extreme_inRange {a : PropertyAggregate} {op : CollectionOperator} (better : Ordering)
    (hbetter : better ≠ .eq) (htype : e.type ∉ [HostType.object, .xml, .charArray])
    (hnullable : e.type.isNullableValueType = true → e.type.isOrdered = true)
    (h : a.extreme op group p e = .ok slot)
    (happly : ∀ type args, op.apply type args =
      Operand.selected (.collection op) args >>= (Accumulator.extreme better none type).run)
    (hresult : op.resultType [group, .mkLambda p e] = e.type) :
    (slot.eval env).InRange fun v => s.admits slot.type v = true := by
  unfold extreme at h
  split at h
  next => cases h
  next hstructured =>
    cases h
    have hordered := isOrdered_of_extreme htype (Bool.eq_false_iff.mpr hstructured) hnullable
    refine call_inRange hgroup heval hitems hinput (happly _) fun values hne hvalues => ?_
    rw [hresult]
    exact run_extreme_inRange hvalues hbetter hordered hne

omit hitems in
/-- The number of the different values of a group. -/
theorem countDistinct_inRange :
    ((Expr.mkCollection .longCount
      [.mkCollection .distinct [.mkCollection .select [group, .mkLambda p e]]]).eval env).InRange fun v =>
        s.admits (.int .int64) v = true := by
  obtain ⟨args, hcall, hselected⟩ := call_eval hgroup heval .select e (p := p)
  obtain ⟨values, hvalues, -, -⟩ := exists_values hinput
  have hselect : (Expr.mkCollection .select [group, .mkLambda p e]).eval env =
      .ok (.collection values) := by
    rw [hcall]
    change (Operand.selected (.collection .select) args >>= fun vs =>
      (.ok (.collection vs) : Outcome Value)) = _
    rw [hselected, hvalues]
    rfl
  rw [Expr.eval_collection rfl, Expr.eval_collection rfl, hselect]
  change Outcome.InRange _ ((Accumulator.start .count _).run (distinctItems values))
  rw [Accumulator.run_count]
  rfl

/-- A built-in aggregate under a label of the schema. -/
theorem custom_inRange {label : String} (htype : e.type ∉ [HostType.object, .xml, .charArray])
    (hnullable : e.type.isNullableValueType = true → e.type.isOrdered = true)
    (hbuiltIn : s.IsBuiltIn label) (h : custom s label group p e = .ok slot) :
    (slot.eval env).InRange fun v => s.admits slot.type v = true := by
  unfold custom at h
  split at h
  next c hc =>
    cases h
    obtain ⟨code, hcode, hb⟩ := Option.bind_eq_some_iff.mp hc
    obtain ⟨a, rfl⟩ := hbuiltIn code hcode
    obtain ⟨result, hresult, rfl⟩ := Option.map_eq_some_iff.mp hb
    refine call_inRange hgroup heval hitems hinput (fun _ => rfl) fun values hne hvalues => ?_
    refine Aggregate.run_inRange hvalues hresult (fun hextreme => ?_) hne
    have horderable : Aggregate.isOrderable e.type = true := by
      rcases hextreme with rfl | rfl <;>
        exact (Option.ite_none_right_eq_some.mp hresult).1
    refine isOrdered_of_extreme htype ?_ hnullable
    revert horderable
    cases e.type <;> first | exact fun _ => rfl | exact fun h => by cases h
  next => cases h

/-- The aggregate of a group, as it is bound for an input. -/
theorem combine_inRange {a : PropertyAggregate}
    (htype : e.type ∉ [HostType.object, .xml, .charArray])
    (hnullable : a.method.comparesValues = true → e.type.isNullableValueType = true →
      e.type.isOrdered = true)
    (hbuiltIn : ∀ label, a.method = .custom label → s.IsBuiltIn label)
    (h : a.combine s group p e = .ok slot) :
    (slot.eval env).InRange fun v => s.admits slot.type v = true := by
  have hobject : e.type.isObject = false := by
    unfold HostType.isObject
    simp_all
  unfold combine at h
  split at h
  case h_1 =>
    cases h
    rw [Expr.eval_collection hgroup, heval]
    change Outcome.InRange _ ((Accumulator.start .count _).run items)
    rw [Accumulator.run_count]
    rfl
  case h_2 =>
    cases h
    exact countDistinct_inRange hgroup heval hinput
  case h_3 =>
    refine total_inRange hgroup heval hitems hinput hobject h (fun _ _ => rfl) (fun hsum => ?_)
      (m := .sum) (by decide)
    have htype : CollectionOperator.resultType .sum [group, .mkLambda p (summand e)] =
        e.type.summandType := by
      rw [← summand_type] at hsum ⊢
      exact if_pos hsum
    rw [htype]
    exact if_pos hsum
  case h_4 =>
    refine total_inRange hgroup heval hitems hinput hobject h (fun _ _ => rfl) (fun hsome => ?_)
      (m := .average) (by decide)
    obtain ⟨r, hr⟩ := Option.isSome_iff_exists.mp hsome
    have htype : CollectionOperator.resultType .average [group, .mkLambda p (summand e)] = r := by
      change (summand e).type.averageType?.getD .object = r
      rw [summand_type, hr]
      rfl
    rw [htype]
    exact hr
  case h_5 hm =>
    exact extreme_inRange hgroup heval hitems hinput .lt (by decide) htype
      (hnullable (by rw [hm]; rfl)) h (fun _ _ => rfl) rfl
  case h_6 hm =>
    exact extreme_inRange hgroup heval hitems hinput .gt (by decide) htype
      (hnullable (by rw [hm]; rfl)) h (fun _ _ => rfl) rfl
  case h_7 label hm =>
    exact custom_inRange hgroup heval hitems hinput htype (hnullable (by rw [hm]; rfl)) (hbuiltIn label hm) h

end Group

end PropertyAggregate

/-! ## Aggregates as they are bound -/

/-- **Aggregates that are accepted do not fail for the types of the values.** On a group with items,
where the values of the input are of its static type, an aggregate of a property gives a value of
its own static type, or a number is out of range; a label of the schema has to stand for a built-in
aggregate. Least and greatest values are taken of every type that is no record type and no collection
type itself, so that a type that is one of these made nullable has to be excluded for them. -/
theorem accepted_aggregates_are_type_safe [External] {a : PropertyAggregate} {c c' : Context}
    {group slot : Expr} (h : a.bind group c = (.ok slot, c')) {env : Env} {key : Value}
    {items : List Value}
    (hgroup : group.isLambda = false) (heval : group.eval env = .ok (.grouping key items))
    (hitems : items ≠ []) (hbuiltIn : ∀ label, a.method = .custom label → c.schema.IsBuiltIn label)
    (hinput : a.method ≠ .count → ∀ node e c₁, a.input = some node → node.bind c = (.ok e, c₁) →
      e.type ∉ [HostType.object, .xml, .charArray] ∧
      (a.method.comparesValues = true → e.type.isNullableValueType = true →
        e.type.isOrdered = true) ∧
      ∀ v ∈ items, ∃ w, e.eval ((c.current.id, v) :: env) = .ok w ∧
        c.schema.admits e.type w = true) :
    (slot.eval env).InRange fun v => c.schema.admits slot.type v = true := by
  by_cases hcount : a.method = .count
  · unfold PropertyAggregate.bind at h
    rw [if_pos hcount] at h
    cases h
    rw [Expr.eval_collection hgroup, heval]
    change Outcome.InRange _ ((Accumulator.start .count _).run items)
    rw [Accumulator.run_count]
    rfl
  · obtain ⟨node, e, c₁, hnode, hbind, hcombine⟩ := PropertyAggregate.exists_of_bind hcount h
    obtain ⟨htype, hnullable, hvalues⟩ := hinput hcount node e c₁ hnode hbind
    have hframe := node.bind_keeps c
    rw [hbind] at hframe
    rw [← hframe.schema, ← hframe.current] at hvalues
    rw [← hframe.schema] at hbuiltIn ⊢
    exact PropertyAggregate.combine_inRange hgroup heval hitems hvalues htype hnullable hbuiltIn hcombine

/-! ### Bills -/

/-- Bills with a rank that may be missing, and with a line of a type made nullable. -/
def billContext : Context :=
  .initial ⟨[("Bill", ⟨"Bill",
    [("Rank", .nullable (.int .sbyte)), ("Line", .nullable (.record "Line"))], none⟩),
    ("Line", ⟨"Line", [("Qty", .int .int32)], none⟩)], [], []⟩ {} (.record "Bill")

/-- A property of the bill. -/
def billNode (name : String) : Node :=
  .property (.rangeVariable ⟨RangeVariable.itName, .entity "Bill" true⟩) name .single

/-- A bill of some quantity. -/
def billOf (rank : Value) (qty : Int) : Value :=
  .record "Bill" [("Rank", rank), ("Line", .record "Line" [("Qty", .int32 qty)])]

/-- A group of two bills. -/
def billGroup : Param := ⟨1, RangeVariable.itName, .grouping (.wrapper .noGroupBy) (.record "Bill")⟩

/-- The ranks of bills are small numbers, of which one is missing; their sum has 32 bits. -/
theorem sum_of_ranks_is_type_safe :
    ∃ slot, ((⟨.sum, some (billNode "Rank"), "Total"⟩ : PropertyAggregate).bind (.param billGroup)
        billContext).1 = .ok slot ∧
      (slot.eval (Expr.groupEnv billGroup .null
        [billOf (.int ⟨.sbyte, 100, by decide⟩) 1, billOf .null 2])).InRange
        fun v => billContext.schema.admits slot.type v = true := by
  refine ⟨_, rfl, accepted_aggregates_are_type_safe (a := ⟨.sum, some (billNode "Rank"), "Total"⟩)
    (c := billContext) rfl rfl rfl (by simp) nofun ?_⟩
  rintro - node e c₁ ⟨⟩ hbind
  cases hbind
  refine ⟨by decide, fun h => absurd h (by decide), ?_⟩
  simp only [List.forall_mem_cons]
  exact ⟨⟨_, rfl, by decide⟩, ⟨_, rfl, by decide⟩, by simp⟩

/-- The least line of some bills is accepted, as the type of lines is no record type but one made
nullable, and lines have no order. -/
theorem least_line_fails :
    ∃ slot e, ((⟨.min, some (billNode "Line"), "M"⟩ : PropertyAggregate).bind (.param billGroup)
        billContext).1 = .ok slot ∧
      ((billNode "Line").bind billContext).1 = .ok e ∧
      e.type ∉ [HostType.object, .xml, .charArray] ∧
      (∀ v ∈ [billOf .null 3, billOf .null 4], ∃ w,
        e.eval ((billContext.current.id, v) ::
          Expr.groupEnv billGroup .null [billOf .null 3, billOf .null 4]) = .ok w ∧
        billContext.schema.admits e.type w = true) ∧
      slot.eval (Expr.groupEnv billGroup .null [billOf .null 3, billOf .null 4]) =
        EvalError.fail (.extremesNotComparable (.record "Line" [("Qty", .int32 3)])
          (.record "Line" [("Qty", .int32 4)])) := by
  refine ⟨_, _, rfl, rfl, by decide, ?_, rfl⟩
  simp only [List.forall_mem_cons]
  exact ⟨⟨_, rfl, by decide⟩, ⟨_, rfl, by decide⟩, by simp⟩

end TypedQuery
