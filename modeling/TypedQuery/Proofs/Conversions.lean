import TypedQuery.Proofs.Operands
import TypedQuery.Proofs.NullFree
import TypedQuery.Proofs.Rows

/-!
# Conversions

What a conversion gives, of any value and to any type that has null at most once at each place. Null stays
null and nothing else becomes null; the items of a collection are of the element type, at any depth; what was
converted once is not changed by the same conversion again. A whole number keeps its number: it is converted
where it fits, and the conversion fails where it does not.

* `HostType.nullableOnce`: types that do not make a nullable type nullable.
* `HostType.holds`: the values of a type, the items of collections included.
* `Value.holds_of_convert`, `Value.convert_of_holds`: conversions lead to the values of the type and keep them.
* `Value.exists_convert_int_iff`: which numbers are converted.
* **`Value.conversions_are_sound`**: all of it.
-/

namespace TypedQuery

/-! ## Values of a type -/

namespace HostType

/-- Whether nothing in the type makes a nullable type nullable. -/
def nullableOnce : HostType → Bool
  | .nullable t => !t.isNullableValueType && t.nullableOnce
  | .collection element => element.nullableOnce
  | .grouping key element => key.nullableOnce && element.nullableOnce
  | .enum _ underlying _ _ => underlying.nullableOnce
  | _ => true

/-- Whether a value is one of the type: null where the type has null, a collection if its items are of the
element type. -/
def holds : HostType → Value → Bool
  | .nullable t, v => v.isNull || t.holds v
  | .collection element, v =>
    match v with
    | .null => true
    | .collection items => items.all element.holds
    | _ => false
  | t, v => if v.isNull then t.isNullable else v.isInstanceOf t

/-- Whether a whole number is one of an integral type, or the number of a member of an enumeration. -/
def Carries (t : HostType) (n : Int) : Prop :=
  match t.nonNullable with
  | .int w => w.Holds n
  | .enum .. => IntWidth.int64.Holds n
  | _ => False

variable {t u : HostType} {v : Value}

theorem nonNullable_of_nullableOnce (h : (nullable u).nullableOnce = true) : u.nonNullable = u := by
  rw [nullableOnce, Bool.and_eq_true, Bool.not_eq_true'] at h
  exact nonNullable_eq_self h.1

theorem nullableOnce_nonNullable (h : (nullable u).nullableOnce = true) : u.nullableOnce = true := by
  rw [nullableOnce, Bool.and_eq_true] at h
  exact h.2

theorem asEnum?_eq_some_iff {e : EnumType} : t.asEnum? = some e ↔ t.nonNullable = .ofEnum e := by
  unfold asEnum?
  constructor
  · intro h
    split at h
    next ht =>
      cases h
      exact ht
    next => cases h
  · intro h
    rw [h]
    rfl

/-- Without parts that have a type of their own, instances are all there is besides null. -/
theorem holds_eq (hnull : t.isNullableValueType = false) (hitems : ∀ element, t ≠ .collection element) :
    t.holds v = if v.isNull then t.isNullable else v.isInstanceOf t := by
  cases t <;> first | rfl | (cases hnull; done) | exact absurd rfl (hitems _)

theorem isNullable_of_holds (h : t.holds .null = true) : t.isNullable = true := by
  cases t <;> first | rfl | exact h

theorem isInstanceOf_of_holds (ht : t.nullableOnce = true) (h : t.holds v = true) (hv : v.isNull = false) :
    v.isInstanceOf t = true := by
  induction t with
  | nullable u ih =>
    rw [holds, hv, Bool.false_or] at h
    rw [Value.isInstanceOf_congr (t := .nullable u) v (nonNullable_of_nullableOnce ht).symm]
    exact ih (nullableOnce_nonNullable ht) h
  | collection element =>
    cases v <;> first | rfl | (cases hv; done) | cases h
  | _ =>
    rw [holds_eq rfl (by simp), hv, if_neg Bool.false_ne_true] at h
    exact h

end HostType

/-! ## Conversions to a type -/

namespace Value

variable {t u : HostType} {v w : Value}

theorem convert_null_iff : Value.null.convert t = .ok w ↔ t.isNullable = true ∧ w = .null := by
  unfold convert
  cases t.isNullable <;> simp [EvalError.fail, eq_comm]

/-- What is not null is converted to something that is not. -/
theorem isNull_convert_eq (h : v.convert t = .ok w) : w.isNull = v.isNull := by
  cases hv : v.isNull with
  | true =>
    obtain rfl := eq_null hv
    rw [(convert_null_iff.mp h).2]
    rfl
  | false => exact isNull_convert hv h

/-- Items are converted to a collection one by one. -/
theorem convert_collection_iff {element : HostType} {items : List Value} :
    (Value.collection items).convert (.collection element) = .ok w ↔
      ∃ items', w = .collection items' ∧
        List.Forall₂ (fun v w => v.convert element = .ok w) items items' := by
  change (convertItems items element).map .collection = .ok w ↔ _
  rw [convertItems_eq_mapM]
  constructor
  · intro h
    cases hitems : items.mapM fun v => v.convert element with
    | error e =>
      rw [hitems] at h
      cases h
    | ok items' =>
      rw [hitems] at h
      cases h
      exact ⟨items', rfl, Outcome.forall₂_of_mapM hitems⟩
  · rintro ⟨items', rfl, hitems⟩
    rw [Outcome.mapM_of_forall₂ hitems]
    rfl

/-- Nothing but a collection is converted to a collection. -/
theorem exists_items_of_convert {element : HostType} (hv : v.isNull = false)
    (h : v.convert (.collection element) = .ok w) : ∃ items, v = .collection items := by
  cases v <;> first | exact ⟨_, rfl⟩ | (cases hv; done) | cases h

/-- What is converted is an instance of the type. -/
theorem isInstanceOf_of_convert (hv : v.isNull = false) (h : v.convert t = .ok w) :
    w.isInstanceOf t.nonNullable = true := by
  cases v with
  | null => cases hv
  | collection items =>
    unfold convert at h
    split at h
    next element ht =>
      cases hitems : convertItems items element <;> rw [hitems] at h <;> cases h
      rw [ht]
      rfl
    next =>
      split_ifs at h with hinstance <;> cases h
      exact hinstance
  | _ =>
    rw [convert_of_not_collection rfl (by simp)] at h
    split_ifs at h with hinstance
    · cases h
      exact hinstance
    · exact convertScalar_isInstanceOf h

/-- **A conversion gives a value of the type**, the items of collections included. -/
theorem holds_of_convert (ht : t.nullableOnce = true) (h : v.convert t = .ok w) : t.holds w = true := by
  -- the type says which items are converted, so the induction is on it and not on the value
  induction t generalizing v w with
  | nullable u ih =>
    cases hv : v.isNull with
    | true => rw [HostType.holds, isNull_convert_eq h, hv, Bool.true_or]
    | false =>
      have hu : v.convert u = .ok w :=
        convert_congr (t := .nullable u) hv (HostType.nonNullable_of_nullableOnce ht).symm h
      rw [HostType.holds, ih (HostType.nullableOnce_nonNullable ht) hu, Bool.or_true]
  | collection element ih =>
    cases hv : v.isNull with
    | true =>
      obtain rfl := eq_null hv
      rw [(convert_null_iff.mp h).2]
      rfl
    | false =>
      obtain ⟨items, rfl⟩ := exists_items_of_convert hv h
      obtain ⟨items', rfl, hitems⟩ := convert_collection_iff.mp h
      change items'.all element.holds = true
      rw [List.all_eq_true]
      intro x hx
      obtain ⟨y, -, hy⟩ := Outcome.forall₂_mem hitems.flip hx
      exact ih ht hy
  | _ =>
    rw [HostType.holds_eq rfl (by simp), isNull_convert_eq h]
    cases hv : v.isNull with
    | true =>
      obtain rfl := eq_null hv
      exact (convert_null_iff.mp h).1
    | false => exact isInstanceOf_of_convert hv h

/-- **A value of the type is converted to itself.** -/
theorem convert_of_holds (ht : t.nullableOnce = true) (h : t.holds v = true) : v.convert t = .ok v := by
  induction t generalizing v with
  | nullable u ih =>
    cases hv : v.isNull with
    | true =>
      obtain rfl := eq_null hv
      rfl
    | false =>
      rw [HostType.holds, hv, Bool.false_or] at h
      exact convert_congr hv (HostType.nonNullable_of_nullableOnce ht) (ih (HostType.nullableOnce_nonNullable ht) h)
  | collection element ih =>
    cases v <;> first | rfl | cases h | skip
    next items =>
      have hitems : ∀ x ∈ items, element.holds x = true := List.all_eq_true.mp h
      exact convert_collection_iff.mpr ⟨items, rfl, List.forall₂_same.mpr fun x hx => ih ht (hitems x hx)⟩
  | _ =>
    rw [HostType.holds_eq rfl (by simp)] at h
    split_ifs at h with hv
    · obtain rfl := eq_null hv
      exact convert_null_iff.mpr ⟨h, rfl⟩
    · exact Schema.convert_of_isInstanceOf h (by simp [HostType.nonNullable])

/-! ## Whole numbers -/

/-- A number is converted to an enumeration if it has 64 bits. -/
theorem convert_int_enum {n : SizedInt} {e : EnumType} (ht : t.nonNullable = .ofEnum e) :
    (Value.int n).convert t =
      if IntWidth.int64.Holds n.val then .ok (.enum e.name (Int64.ofInt n.val))
      else EvalError.fail (.invalidCast (.int n) t) := by
  have hne : ¬ (Value.int n).isInstanceOf (.ofEnum e) = true := by
    simp [isInstanceOf, HostType.nonNullable, HostType.ofEnum, hostType?]
  rw [convert_of_not_collection rfl (by simp), ht, if_neg hne]
  unfold convertScalar
  rw [ht]
  rfl

/-- Values of an enumeration are not converted to other enumerations. -/
theorem eq_of_convert_enum {typeName : String} {value : Int64} {e : EnumType} (ht : t.nonNullable = .ofEnum e)
    (h : (Value.enum typeName value).convert t = .ok w) : w = .enum typeName value := by
  rw [convert_of_not_collection rfl (by simp), ht] at h
  split_ifs at h
  · cases h
    rfl
  · unfold convertScalar at h
    rw [ht] at h
    cases h

theorem toInt_ofInt_of_holds {n : Int} (h : IntWidth.int64.Holds n) : (Int64.ofInt n).toInt = n :=
  Int64.toInt_ofInt_of_le h.1 (Int.lt_add_one_of_le h.2)

/-- A conversion to an integral type or to an enumeration keeps the number. -/
theorem asInt?_of_convert {n : Int} (ht : t.isIntegral = true ∨ t.asEnum?.isSome = true) (hv : v.asInt? = some n)
    (h : v.convert t = .ok w) : w.asInt? = some n := by
  rcases ht with ht | ht
  · obtain ⟨width, hwidth⟩ := HostType.isIntegral_iff.mp ht
    rw [convert_integral hv hwidth] at h
    cases hn : SizedInt.ofInt? width n <;> rw [hn] at h <;> cases h
    rw [← (SizedInt.ofInt?_eq_some_iff.mp hn).2]
    rfl
  · obtain ⟨e, he⟩ := Option.isSome_iff_exists.mp ht
    have henum := HostType.asEnum?_eq_some_iff.mp he
    cases v <;> first | (cases hv; done) | skip
    case int m =>
      cases hv
      rw [convert_int_enum henum] at h
      split_ifs at h with hm <;> cases h
      exact congrArg some (toInt_ofInt_of_holds hm)
    case enum typeName value =>
      rw [eq_of_convert_enum henum h]
      exact hv

/-- **A number is converted to an integral type or to an enumeration just where it fits.** -/
theorem exists_convert_int_iff {n : SizedInt} (ht : t.isIntegral = true ∨ t.asEnum?.isSome = true) :
    (∃ w, (Value.int n).convert t = .ok w) ↔ t.Carries n.val := by
  rcases ht with ht | ht
  · obtain ⟨width, hwidth⟩ := HostType.isIntegral_iff.mp ht
    rw [HostType.Carries, hwidth]
    constructor
    · rintro ⟨w, hw⟩
      rw [convert_integral rfl hwidth] at hw
      cases hn : SizedInt.ofInt? width n.val <;> rw [hn] at hw <;> cases hw
      obtain ⟨rfl, hval⟩ := SizedInt.ofInt?_eq_some_iff.mp hn
      exact hval ▸ SizedInt.fits _
    · exact fun hn => ⟨_, convert_int hwidth hn⟩
  · obtain ⟨e, he⟩ := Option.isSome_iff_exists.mp ht
    have henum := HostType.asEnum?_eq_some_iff.mp he
    rw [HostType.Carries, henum, convert_int_enum henum]
    split_ifs with hn
    · exact iff_of_true ⟨_, rfl⟩ hn
    · exact iff_of_false (fun ⟨_, hw⟩ => by cases hw) hn

/-- **Conversions are sound.** What a value is converted to is null just where the value is, and then the type has
null; it is an instance of the type otherwise, item by item in collections, and is converted to itself. A whole
number is converted where it fits, and keeps its number. -/
theorem conversions_are_sound {t : HostType} (ht : t.nullableOnce = true) (v : Value) :
    (∀ w, v.convert t = .ok w →
      (w.isNull = true ↔ v.isNull = true) ∧ (w.isNull = true → t.isNullable = true) ∧
        (w.isNull = false → w.isInstanceOf t = true) ∧ t.holds w = true ∧ w.convert t = .ok w) ∧
      ∀ n, v = .int n → t.isIntegral = true ∨ t.asEnum?.isSome = true →
        (∀ w, v.convert t = .ok w → w.asInt? = some n.val) ∧ ((∃ w, v.convert t = .ok w) ↔ t.Carries n.val) := by
  refine ⟨fun w hw => ?_, ?_⟩
  · have hholds := holds_of_convert ht hw
    refine ⟨by rw [isNull_convert_eq hw], fun hnull => ?_, HostType.isInstanceOf_of_holds ht hholds, hholds,
      convert_of_holds ht hholds⟩
    obtain rfl := eq_null hnull
    exact HostType.isNullable_of_holds hholds
  · rintro n rfl hkind
    exact ⟨fun w hw => asInt?_of_convert hkind rfl hw, exists_convert_int_iff hkind⟩

/-! ### Sizes -/

/-- A collection of numbers, of which one is missing: narrowed to 32 bits, item by item, and no further. -/
theorem conversions_are_sound_for_sizes :
    let sizes : Value := .collection [int64 7, .null]
    let narrow : Value := .collection [int32 7, .null]
    let type : HostType := .nullable (.collection (.nullable (.int .int32)))
    type.nullableOnce = true ∧ sizes.convert type = .ok narrow ∧ narrow.isInstanceOf type = true ∧
      narrow.convert type = .ok narrow :=
  have hsound := (conversions_are_sound (t := .nullable (.collection (.nullable (.int .int32)))) rfl
    (.collection [int64 7, .null])).1 (.collection [int32 7, .null]) rfl
  ⟨rfl, rfl, hsound.2.2.1 rfl, hsound.2.2.2.2⟩

end Value

end TypedQuery
