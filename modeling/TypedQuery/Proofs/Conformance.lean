import Mathlib.Tactic.Common
import TypedQuery.Eval
import TypedQuery.Proofs.Equality
import TypedQuery.Proofs.Numbers
import TypedQuery.Proofs.TextPositions

/-!
# Values of a static type

A value conforms to a static type if it is null only where the type allows null, through records and
collections. What operations on conforming values give conforms again, and where they fail, they do
not fail because of a null.

* `EvalError.isNullError`: the failures that a null causes.
* `Conforms`: the values of a static type.
* `Outcome.Meets`, `Outcome.NullSafe`: a result with a property, or a failure with one.
* `ScalarFunction.HasResult`: the values that a function computes.
* **`Value.convert_same`**, **`ScalarFunction.apply_nullSafe`**, **`BinaryOp.arithmetic_nullSafe`**:
  conversions, functions and arithmetic.
-/

namespace TypedQuery

/-! ## Failures that a null causes -/

/-- Whether the cause of a failure is a null: where a member, an entry or items are read, where a value
is converted, where a boolean is needed, or among the arguments of a function. -/
def EvalError.isNullError : EvalError → Bool
  | .nullReference _ | .indexOfNull | .containsKeyOfNull | .nullSource _ | .nullConversion _ => true
  | .testNotBoolean v | .notBoolean v => v.isNull
  | .notApplicable _ args => args.any Value.isNull
  | _ => false

/-- Whether the cause of an error is a null. -/
def Error.isNullError : Error → Bool
  | .evaluation cause => cause.isNullError
  | _ => false

/-! ## Outcomes with a property -/

namespace Outcome

variable {α β : Type} {E : Error → Prop} {P Q : α → Prop} {R : β → Prop}

/-- The outcome is a result with a property, or a failure with one. -/
def Meets (E : Error → Prop) (P : α → Prop) : Outcome α → Prop
  | .ok a => P a
  | .error e => E e

/-- The outcome is a result with a property, or a failure that no null causes. -/
abbrev NullSafe (P : α → Prop) (o : Outcome α) : Prop := o.Meets (fun e => e.isNullError = false) P

namespace Meets

theorem bind {o : Outcome α} {f : α → Outcome β} (ho : o.Meets E P) (hf : ∀ a, P a → (f a).Meets E R) :
    (o >>= f).Meets E R := by
  cases o with
  | error e => exact ho
  | ok a => exact hf a ho

theorem mono {o : Outcome α} (ho : o.Meets E P) (h : ∀ a, P a → Q a) : o.Meets E Q := by
  cases o with
  | error e => exact ho
  | ok a => exact h a ho

theorem self {o : Outcome α} (ho : o.Meets E P) : o.Meets E fun a => P a ∧ o = .ok a := by
  cases o with
  | error e => exact ho
  | ok a => exact ⟨ho, rfl⟩

theorem orFail {o : Option α} {cause : EvalError} (hcause : E (.evaluation cause))
    (ho : ∀ a, o = some a → P a) : (TypedQuery.orFail cause o).Meets E P := by
  cases o with
  | none => exact hcause
  | some a => exact ho a rfl

theorem orAbort {o : Option α} (haborted : E .aborted) (ho : ∀ a, o = some a → P a) :
    (TypedQuery.orAbort o).Meets E P := by
  cases o with
  | none => exact haborted
  | some a => exact ho a rfl

theorem mapM {f : α → Outcome β} {as : List α} (hf : ∀ a ∈ as, (f a).Meets E R) :
    (as.mapM f).Meets E fun bs => ∀ b ∈ bs, R b := by
  induction as with
  | nil => exact fun b hb => by cases hb
  | cons a rest ih =>
    rw [List.mapM_cons]
    refine (hf a List.mem_cons_self).bind fun b hb => ?_
    refine (ih fun c hc => hf c (List.mem_cons_of_mem _ hc)).bind fun bs hbs => ?_
    exact List.forall_mem_cons.mpr ⟨hb, hbs⟩

/-- What holds at first and is kept by every step holds of the result of a loop. -/
theorem foldlM {f : α → β → Outcome α} {bs : List β} {a : α} (ha : P a)
    (hf : ∀ a b, b ∈ bs → P a → (f a b).Meets E P) : (bs.foldlM f a).Meets E P := by
  induction bs generalizing a with
  | nil => exact ha
  | cons b rest ih =>
    rw [List.foldlM_cons]
    exact (hf a b List.mem_cons_self ha).bind fun a' ha' =>
      ih ha' fun c d hd => hf c d (List.mem_cons_of_mem _ hd)

end Meets

end Outcome

/-! ## Conforming values -/

/-- Whether the value is neither null, nor a record, nor a collection. -/
def Value.isPlain : Value → Bool
  | .null | .record .. | .collection _ => false
  | _ => true

theorem Value.eq_null {v : Value} (h : v.isNull = true) : v = .null := by
  cases v <;> first | rfl | cases h

/-- Whether the value is not null and has no values inside. -/
def Value.isAtom (v : Value) : Bool := v.isScalar && !v.isNull

theorem Value.isScalar_of_isAtom {v : Value} (h : v.isAtom = true) : v.isScalar = true :=
  (Bool.and_eq_true _ _ ▸ h).1

theorem Value.isPlain_of_isAtom {v : Value} (h : v.isAtom = true) : v.isPlain = true := by
  cases v <;> first | rfl | cases h

theorem Value.isNull_of_isPlain {v : Value} (h : v.isPlain = true) : v.isNull = false := by
  cases v <;> first | rfl | cases h

namespace HostType

/-- Whether the type has plain values. -/
def isPlain : HostType → Bool
  | .record _ | .collection _ => false
  | .nullable t => t.isPlain
  | _ => true

/-- Whether the type has plain values only. -/
def isAtomic : HostType → Bool
  | .record _ | .collection _ | .object | .nullable _ => false
  | _ => true

theorem isPlain_nonNullable (t : HostType) : t.nonNullable.isPlain = t.isPlain := by cases t <;> rfl

theorem isPlain_toNullable (t : HostType) : t.toNullable.isPlain = t.isPlain := by
  unfold toNullable
  split <;> rfl

theorem isPlain_of_isAtomic {t : HostType} (h : t.nonNullable.isAtomic = true) : t.isPlain = true := by
  rw [← isPlain_nonNullable]
  revert h
  cases t.nonNullable <;> simp [isAtomic, isPlain]

theorem isAtomic_of_isValueType {t : HostType} (h : t.isValueType = true) : t.isAtomic = true := by
  cases t <;> first | rfl | cases h

theorem nonNullable_of_isValueType {t : HostType} (h : t.isValueType = true) : t.nonNullable = t := by
  cases t <;> first | rfl | cases h

theorem nonNullable_eq_self {t : HostType} (h : t.isNullableValueType = false) : t.nonNullable = t := by
  cases t <;> first | rfl | cases h

theorem eq_nullable {t : HostType} (h : t.isNullableValueType = true) : t = .nullable t.nonNullable := by
  cases t <;> first | rfl | cases h

theorem isNullable_toNullable (t : HostType) : t.toNullable.isNullable = true := by
  unfold toNullable
  split_ifs with h
  · rfl
  · simpa [isNullable] using h

theorem toNullable_of_isNullable {t : HostType} (h : t.isNullable = true) : t.toNullable = t := by
  unfold toNullable
  rw [if_neg]
  simpa [isNullable] using h

theorem nonNullable_toNullable (t : HostType) : t.toNullable.nonNullable = t.nonNullable := by
  cases t <;> rfl

theorem toNullable_toNullable (t : HostType) : t.toNullable.toNullable = t.toNullable :=
  toNullable_of_isNullable t.isNullable_toNullable

end HostType

/-- The values of a static type: null only at nullable types, records whose fields have values of
their declared types, and collections whose items have values of the type of the items. -/
inductive Conforms (s : Schema) : HostType → Value → Prop
  | null {t : HostType} (h : t.isNullable = true) : Conforms s t .null
  | plain {t : HostType} {v : Value} (ht : t.isPlain = true) (hv : v.isPlain = true) : Conforms s t v
  | object (v : Value) : Conforms s .object v
  | record {name typeName : String} {fields : List (String × Value)}
    (h : ∀ key m v, s.member? name key = some m → Entries.get? fields key = some v →
      Conforms s m.type v) : Conforms s (.record name) (.record typeName fields)
  | collection {t : HostType} {items : List Value} (h : ∀ v ∈ items, Conforms s t v) :
    Conforms s (.collection t) (.collection items)
  | nullable {t : HostType} {v : Value} (h : Conforms s t v) : Conforms s (.nullable t) v

namespace Conforms

variable {s : Schema} {t target : HostType} {v w : Value}

theorem isNullable (h : Conforms s t v) (hv : v.isNull = true) : t.isNullable = true := by
  cases h with
  | null h => exact h
  | plain _ hp =>
    rw [Value.isNull_of_isPlain hp] at hv
    cases hv
  | object => rfl
  | record => cases hv
  | collection => cases hv
  | nullable => rfl

theorem isPlain (h : Conforms s t v) (hv : v.isPlain = true) : t.isPlain = true := by
  induction h with
  | null => cases hv
  | plain ht => exact ht
  | object => rfl
  | record => cases hv
  | collection => cases hv
  | nullable _ ih => exact ih hv

theorem nonNullable (h : Conforms s t v) (hv : v.isNull = false) : Conforms s t.nonNullable v := by
  cases h with
  | null => cases hv
  | plain ht hp => exact .plain (by rwa [HostType.isPlain_nonNullable]) hp
  | object => exact .object v
  | record h => exact .record h
  | collection h => exact .collection h
  | nullable h => exact h

theorem of_nonNullable (h : Conforms s t.nonNullable v) : Conforms s t v := by
  cases t with
  | nullable t => exact .nullable h
  | _ => exact h

theorem atomic (h : Conforms s t v) (ht : t.nonNullable.isAtomic = true) :
    v.isNull = true ∨ v.isPlain = true := by
  cases hv : v.isNull with
  | true => exact .inl rfl
  | false =>
    have h := h.nonNullable hv
    revert h ht
    generalize t.nonNullable = u
    intro ht h
    cases h with
    | plain _ hp => exact .inr hp
    | null => cases hv
    | _ => cases ht

/-- The values of a value type are plain. -/
theorem isPlain_of_isValueType (h : Conforms s t v) (ht : t.isValueType = true) : v.isPlain = true := by
  have hatomic : t.nonNullable.isAtomic = true := by
    rw [HostType.nonNullable_of_isValueType ht]
    exact HostType.isAtomic_of_isValueType ht
  refine (h.atomic hatomic).resolve_left fun hnull => ?_
  have hnullable := h.isNullable hnull
  rw [HostType.isNullable, ht] at hnullable
  cases hnullable

theorem record_inv {name : String} (h : Conforms s (.record name) v) (hv : v.isNull = false) :
    ∃ typeName fields, v = .record typeName fields ∧
      ∀ key m v, s.member? name key = some m → Entries.get? fields key = some v → Conforms s m.type v := by
  cases h with
  | null => cases hv
  | plain ht => cases ht
  | record h => exact ⟨_, _, rfl, h⟩

theorem collection_inv (h : Conforms s (.collection t) v) (hv : v.isNull = false) :
    ∃ items, v = .collection items ∧ ∀ w ∈ items, Conforms s t w := by
  cases h with
  | null => cases hv
  | plain ht => cases ht
  | collection h => exact ⟨_, rfl, h⟩

end Conforms

/-! ## Numbers and conversions -/

namespace Value

theorem isPlain_of_nonNullable {t u : HostType} (h : t.nonNullable = u) (hu : u.isPlain = true) :
    t.isPlain = true := by
  rw [← HostType.isPlain_nonNullable, h, hu]

/-- What a conversion to a type with plain values gives. -/
def AtomOf (t : HostType) (w : Value) : Prop := w.isAtom = true ∧ t.isPlain = true

theorem AtomOf.conforms {s : Schema} {t : HostType} {w : Value} (h : AtomOf t w) : Conforms s t w :=
  .plain h.2 (isPlain_of_isAtom h.1)

theorem ofIntegral_nullSafe (n : Int) (t : HostType) : (ofIntegral n t).NullSafe (AtomOf t) := by
  unfold ofIntegral
  split
  next w ht =>
    refine .orFail rfl fun v hv => ?_
    obtain ⟨_, _, rfl⟩ := Option.map_eq_some_iff.mp hv
    exact ⟨rfl, isPlain_of_nonNullable ht rfl⟩
  next => exact rfl

theorem ofFloat_nullSafe (x : Float) (t : HostType) : (ofFloat x t).NullSafe (AtomOf t) := by
  unfold ofFloat
  have number {α : Type} {o : Option α} {f : α → Value} (hf : ∀ a, (f a).isAtom = true)
      (ht : t.isPlain = true) : (orFail .notANumber (o.map f)).NullSafe (AtomOf t) := by
    refine .orFail rfl fun v hv => ?_
    obtain ⟨a, _, rfl⟩ := Option.map_eq_some_iff.mp hv
    exact ⟨hf a, ht⟩
  split
  next ht => exact number (fun _ => rfl) (isPlain_of_nonNullable ht rfl)
  next ht => exact number (fun _ => rfl) (isPlain_of_nonNullable ht rfl)
  next ht => exact number (fun _ => rfl) (isPlain_of_nonNullable ht rfl)
  next ht => exact number (fun _ => rfl) (isPlain_of_nonNullable ht rfl)
  next =>
    split
    · refine (ofIntegral_nullSafe _ _).mono fun w hw => ⟨hw.1, ?_⟩
      rw [← HostType.isPlain_nonNullable]
      exact hw.2
    · exact rfl

theorem ofInt_nullSafe (n : Int) (t : HostType) : (ofInt n t).NullSafe (AtomOf t) := by
  unfold ofInt
  split
  next => exact ofFloat_nullSafe _ t
  next => exact ofFloat_nullSafe _ t
  next => exact ofFloat_nullSafe _ t
  next ht =>
    split
    · exact ⟨rfl, isPlain_of_nonNullable ht rfl⟩
    · exact rfl
  next ht =>
    refine .orFail rfl fun v hv => ?_
    obtain ⟨_, _, rfl⟩ := Option.map_eq_some_iff.mp hv
    exact ⟨rfl, isPlain_of_nonNullable ht rfl⟩
  next => exact ofIntegral_nullSafe n t

/-- A conversion between kinds gives an atom. -/
theorem convertScalar_nullSafe (v : Value) (target : HostType) :
    (convertScalar v target).NullSafe (AtomOf target) := by
  have htarget {w : Value} (hw : AtomOf target.nonNullable w) : AtomOf target w :=
    ⟨hw.1, by rw [← HostType.isPlain_nonNullable, hw.2]⟩
  have plain {u : HostType} (ht : target.nonNullable = u) (hu : u.isPlain = true) {w : Value}
      (hw : w.isAtom = true) : AtomOf target w := ⟨hw, isPlain_of_nonNullable ht hu⟩
  have calendar {α : Type} {o : Option α} {f : α → Value} (hf : ∀ a, AtomOf target (f a)) :
      (orAbort (o.map f)).NullSafe (AtomOf target) := by
    refine .orAbort rfl fun v hv => ?_
    obtain ⟨a, _, rfl⟩ := Option.map_eq_some_iff.mp hv
    exact hf a
  unfold convertScalar
  dsimp only
  split
  all_goals first
    | rfl
    | exact plain ‹_› rfl rfl
    | exact calendar fun _ => plain ‹_› rfl rfl
    | split
  all_goals first
    | rfl
    | exact (ofInt_nullSafe _ _).mono fun _ => htarget
    | exact (ofFloat_nullSafe _ _).mono fun _ => htarget
    | exact plain ‹_› rfl rfl

/-- What a value is an instance of, it conforms to. -/
theorem conforms_of_isInstanceOf {s : Schema} {v : Value} {t : HostType} (h : v.isInstanceOf t = true)
    (ht : t.isPlain = true) : Conforms s t v := by
  rw [← HostType.isPlain_nonNullable] at ht
  refine Conforms.of_nonNullable ?_
  cases hv : v.isPlain with
  | true => exact .plain ht hv
  | false =>
    unfold isInstanceOf at h
    revert h ht
    generalize t.nonNullable = u
    intro h ht
    cases v <;> first
      | (cases hv; done)
      | (cases u <;> first | exact .object _ | (cases h; done) | cases ht)

/-- What a value is an instance of is not nullable inside. -/
theorem isInstanceOf_nonNullable {v : Value} {t : HostType} (h : v.isInstanceOf t = true) :
    v.isInstanceOf t.nonNullable = true := by
  unfold isInstanceOf at h ⊢
  cases t with
  | nullable u =>
    cases u with
    | nullable => cases v <;> simp [HostType.nonNullable, hostType?] at h
    | _ => exact h
  | _ => exact h

theorem convert_of_not_collection {v : Value} {target : HostType} (hnull : v.isNull = false)
    (hitems : ∀ items, v ≠ .collection items) :
    v.convert target =
      if v.isInstanceOf target.nonNullable then .ok v else convertScalar v target := by
  cases v with
  | null => cases hnull
  | collection items => exact absurd rfl (hitems items)
  | _ => rfl

/-- A conversion keeps the value or gives an atom, but for the items of collections. -/
theorem convert_cases {v : Value} {target : HostType}
    (htarget : ∀ element, target.nonNullable ≠ .collection element)
    (hnull : v.isNull = true → target.isNullable = true) :
    (v.convert target).NullSafe fun w =>
      (w = v ∧ (v.isNull = true ∨ v.isInstanceOf target.nonNullable = true)) ∨ AtomOf target w := by
  cases hv : v.isNull with
  | true =>
    obtain rfl := eq_null hv
    unfold convert
    rw [if_pos (hnull rfl)]
    exact .inl ⟨rfl, .inl rfl⟩
  | false =>
    by_cases hitems : ∃ items, v = .collection items
    · obtain ⟨items, rfl⟩ := hitems
      unfold convert
      split
      next element h => exact absurd h (htarget element)
      next =>
        split_ifs with h
        · exact .inl ⟨rfl, .inr h⟩
        · exact rfl
    · rw [convert_of_not_collection hv fun items h => hitems ⟨items, h⟩]
      split_ifs with h
      · exact .inl ⟨rfl, .inr h⟩
      · exact (convertScalar_nullSafe v target).mono fun _ => .inr

/-- A conversion to a type with plain values. -/
theorem convert_plain {s : Schema} {v : Value} {target : HostType} (htarget : target.isPlain = true)
    (hnull : v.isNull = true → target.isNullable = true) :
    (v.convert target).NullSafe (Conforms s target) := by
  have hplain : target.nonNullable.isPlain = true := by rwa [HostType.isPlain_nonNullable]
  have hne (element : HostType) : target.nonNullable ≠ .collection element := by
    intro h
    rw [h] at hplain
    cases hplain
  refine (convert_cases hne hnull).mono fun w hw => ?_
  rcases hw with ⟨rfl, hw | hw⟩ | hw
  · obtain rfl := eq_null hw
    exact .null (hnull rfl)
  · exact (conforms_of_isInstanceOf hw hplain).of_nonNullable
  · exact hw.conforms

theorem isPlain_of_isInstanceOf {v : Value} {t : HostType} (h : v.isInstanceOf t = true)
    (hv : v.isPlain = true) : t.isPlain = true := by
  rw [← HostType.isPlain_nonNullable]
  unfold isInstanceOf at h
  revert h
  generalize t.nonNullable = u
  intro h
  cases u <;> first | rfl | skip
  all_goals cases v <;> first | (cases hv; done) | simp [hostType?] at h

/-- A conversion of a value that is null or plain. -/
theorem convert_of_plain {s : Schema} {v : Value} {target : HostType}
    (hv : v.isNull = true ∨ v.isPlain = true) (hnull : v.isNull = true → target.isNullable = true) :
    (v.convert target).NullSafe (Conforms s target) := by
  rcases hv with hv | hv
  · obtain rfl := eq_null hv
    unfold convert
    rw [if_pos (hnull rfl)]
    exact .null (hnull rfl)
  · have hitems (items : List Value) : v ≠ .collection items := by
      rintro rfl
      cases hv
    rw [convert_of_not_collection (isNull_of_isPlain hv) hitems]
    split_ifs with h
    · have htarget := isPlain_of_isInstanceOf h hv
      rw [HostType.isPlain_nonNullable] at htarget
      exact .plain htarget hv
    · exact (convertScalar_nullSafe v target).mono fun _ => AtomOf.conforms

theorem convertItems_eq_mapM (items : List Value) (element : HostType) :
    convertItems items element = items.mapM fun v => v.convert element := by
  induction items with
  | nil => rfl
  | cons v rest ih =>
    rw [List.mapM_cons, convertItems, ih]
    cases v.convert element with
    | error e => rfl
    | ok w =>
      cases List.mapM (fun v => v.convert element) rest <;> rfl

theorem convertItems_nullSafe {s : Schema} {items : List Value} {element : HostType}
    (h : ∀ v ∈ items, (v.convert element).NullSafe (Conforms s element)) :
    (convertItems items element).NullSafe fun items => ∀ w ∈ items, Conforms s element w := by
  rw [convertItems_eq_mapM]
  exact .mapM h

/-- Where no collection is asked for, a value of the type is kept, or an atom is made of it. -/
theorem convert_same_of_not_collection {s : Schema} {t target : HostType} {v : Value} (h : Conforms s t v)
    (ht : t.nonNullable = target.nonNullable) (htarget : ∀ element, target.nonNullable ≠ .collection element)
    (hnull : v.isNull = true → target.isNullable = true) :
    (v.convert target).NullSafe (Conforms s target) := by
  refine (convert_cases htarget hnull).mono ?_
  rintro w (⟨rfl, -⟩ | hw)
  · cases hw : w.isNull with
    | true =>
      obtain rfl := eq_null hw
      exact .null (hnull rfl)
    | false =>
      refine Conforms.of_nonNullable ?_
      rw [← ht]
      exact h.nonNullable hw
  · exact hw.conforms

/-- **A conversion that changes nullability only.** -/
theorem convert_same {s : Schema} {t target : HostType} {v : Value} (h : Conforms s t v)
    (ht : t.nonNullable = target.nonNullable) (hnull : v.isNull = true → target.isNullable = true) :
    (v.convert target).NullSafe (Conforms s target) := by
  by_cases hitems : ∃ element, target.nonNullable = .collection element
  · obtain ⟨element, helement⟩ := hitems
    rw [helement] at ht
    -- the items are converted to the type that they have already
    induction h generalizing target element with
    | null =>
      unfold convert
      rw [if_pos (hnull rfl)]
      exact .null (hnull rfl)
    | plain hp =>
      rw [← HostType.isPlain_nonNullable, ht] at hp
      cases hp
    | object => cases ht
    | record => cases ht
    | @collection u items hitems ih =>
      cases ht
      have hitem (v : Value) (hv : v ∈ items) : (v.convert u).NullSafe (Conforms s u) := by
        by_cases hu : ∃ element, u.nonNullable = .collection element
        · obtain ⟨element, hu⟩ := hu
          exact ih v hv (hitems v hv).isNullable element hu hu
        · exact convert_same_of_not_collection (hitems v hv) rfl (fun element h => hu ⟨element, h⟩)
            (hitems v hv).isNullable
      unfold convert
      rw [helement]
      refine (convertItems_nullSafe hitem).bind fun items hitems => Conforms.of_nonNullable ?_
      rw [helement]
      exact .collection hitems
    | nullable _ ih =>
      cases ht
      exact ih hnull element rfl helement
  · exact convert_same_of_not_collection h ht (fun element h => hitems ⟨element, h⟩) hnull

end Value

/-! ## Operators -/

theorem Value.isPlain_of_asFloat? {v : Value} {x : Float} (h : v.asFloat? = some x) :
    v.isPlain = true := by
  cases v <;> first | rfl | cases h

theorem UnaryOp.apply_nullSafe (op : UnaryOp) (v : Value) :
    (op.apply v).NullSafe fun w =>
      (w.isNull = true ∧ v.isNull = true) ∨ (w.isAtom = true ∧ v.isPlain = true) := by
  unfold UnaryOp.apply
  split
  next => exact .inl ⟨rfl, rfl⟩
  next => exact .inr ⟨rfl, rfl⟩
  next => exact rfl
  next => exact .inr ⟨rfl, rfl⟩
  next => exact (Value.ofInt_nullSafe _ _).mono fun w hw => .inr ⟨hw.1, rfl⟩
  next =>
    split
    next hx _ =>
      exact (Value.ofFloat_nullSafe _ _).mono fun w hw => .inr ⟨hw.1, Value.isPlain_of_asFloat? hx⟩
    next => exact rfl

namespace BinaryOp

/-- A comparison gives a boolean, or null where it is lifted. -/
theorem compareValues_nullSafe {s : Schema} (op : BinaryOp) (l r : Value) (lifted : Bool) :
    (op.compareValues l r lifted).NullSafe
      (Conforms s (if lifted then HostType.bool.toNullable else .bool)) := by
  have hbool (b : Bool) : Conforms s (if lifted then HostType.bool.toNullable else .bool) (.bool b) :=
    .plain (by cases lifted <;> rfl) rfl
  unfold compareValues
  by_cases hnull : (l.isNull || r.isNull) = true
  · rw [if_pos hnull]
    unfold compareNulls
    cases lifted with
    | true => exact .null rfl
    | false => cases op <;> exact hbool _
  · rw [if_neg hnull]
    cases op <;> first | exact hbool _ | (cases l.compare? r <;> first | rfl | exact hbool _)

/-- The logic of values that are not null gives a boolean. -/
theorem shortCircuit_nullSafe (op : BinaryOp) {l : Value} {r : Unit → Outcome Value}
    (hl : l.isNull = false) (hr : (r ()).NullSafe fun v => v.isNull = false) :
    (op.shortCircuit l r).NullSafe fun w => w.isAtom = true := by
  unfold shortCircuit
  split
  next =>
    split_ifs
    · exact rfl
    · refine hr.bind fun v hv => ?_
      split
      next => exact rfl
      next => exact hv
  next => exact hl

theorem truthOf_nullSafe (v : Value) : (truthOf v).NullSafe fun _ => True := by
  cases v <;> trivial

/-- The logic of values that may be null gives a boolean or null. -/
theorem apply_logical_nullSafe {s : Schema} {op : BinaryOp} (hop : op.isLogical = true) (l r : Value)
    (lifted : Bool) (t : HostType) :
    (op.apply l r lifted t).NullSafe (Conforms s HostType.bool.toNullable) := by
  unfold apply
  rw [if_pos hop]
  refine (truthOf_nullSafe l).bind fun a _ => (truthOf_nullSafe r).bind fun b _ => ?_
  change Conforms s (.nullable .bool) _
  cases op.combine a b
  · exact .plain rfl rfl
  · exact .plain rfl rfl
  · exact .null rfl

theorem temporal?_isAtom {op : BinaryOp} {l r : Value} {o : Option Value}
    (h : op.temporal? l r = some o) : l.isPlain = true ∧ ∀ w, o = some w → w.isAtom = true := by
  unfold temporal? at h
  split at h <;> first | (cases h; done) | skip
  all_goals
    cases h
    refine ⟨rfl, fun w hw => ?_⟩
    obtain ⟨_, _, rfl⟩ := Option.map_eq_some_iff.mp hw
    rfl

theorem numeric_nullSafe (op : BinaryOp) (l r : Value) (t : HostType) :
    (op.numeric l r t).NullSafe fun w => w.isAtom = true ∧ l.isPlain = true := by
  unfold numeric
  split
  next =>
    split
    next => exact (Value.ofInt_nullSafe _ _).mono fun w hw => ⟨hw.1, rfl⟩
    next => exact rfl
  next =>
    split
    next hl hr =>
      split
      · exact rfl
      · split
        next =>
          exact (Value.ofFloat_nullSafe _ _).mono fun w hw => ⟨hw.1, Value.isPlain_of_asFloat? hl⟩
        next => exact rfl
    next => exact rfl

/-- **Arithmetic gives atoms, and only of plain values.** -/
theorem arithmetic_nullSafe (op : BinaryOp) (l r : Value) (t : HostType) :
    (op.arithmetic l r t).NullSafe fun w => w.isAtom = true ∧ l.isPlain = true := by
  unfold arithmetic
  split
  next o ho =>
    obtain ⟨hl, hw⟩ := temporal?_isAtom ho
    exact .orAbort rfl fun w h => ⟨hw w h, hl⟩
  next => exact op.numeric_nullSafe l r t

end BinaryOp

/-! ## Functions -/

namespace ScalarFunction

variable {f : ScalarFunction} {args : List Value} {w : Value}

/-- A value is one that the function computes: neither null nor a record or collection, and of the type of results. -/
def HasResult (f : ScalarFunction) (w : Value) : Prop :=
  w.isAtom = true ∧ ∀ es, w.isInstanceOf (f.resultType es) = true

theorem hasResult_of_text? (h : f.text? args = some w) : f.HasResult w := by
  unfold text? at h
  split at h <;> first | (cases h; done) | (cases h; exact ⟨rfl, fun _ => rfl⟩) | skip
  next =>
    obtain ⟨_, _, h⟩ := Option.bind_eq_some_iff.mp h
    obtain ⟨_, _, rfl⟩ := Option.map_eq_some_iff.mp h
    exact ⟨rfl, fun _ => rfl⟩
  next =>
    obtain ⟨_, _, h⟩ := Option.bind_eq_some_iff.mp h
    obtain ⟨_, _, h⟩ := Option.bind_eq_some_iff.mp h
    obtain ⟨_, _, rfl⟩ := Option.map_eq_some_iff.mp h
    exact ⟨rfl, fun _ => rfl⟩

theorem hasResult_of_temporal? (h : f.temporal? args = some w) : f.HasResult w := by
  unfold temporal? at h
  split at h <;> first | obtain ⟨t, _, rfl⟩ := Option.map_eq_some_iff.mp h | cases h
  all_goals first
    | exact ⟨rfl, fun _ => rfl⟩
    | obtain ⟨x, hx⟩ := Value.ofDecimal_ofInt_div t.nanos (x := 1000000000.0) (by decide +kernel)
      rw [hx]
      exact ⟨rfl, fun _ => rfl⟩

theorem hasResult_of_comparison? (h : f.comparison? args = some w) : f.HasResult w := by
  unfold comparison? at h
  split at h <;> first | (cases h; done) | (cases h; exact ⟨rfl, fun _ => rfl⟩) | skip
  next =>
    obtain ⟨o, _, rfl⟩ := Option.map_eq_some_iff.mp h
    cases o <;> exact ⟨rfl, fun _ => rfl⟩
  next =>
    obtain ⟨_, _, h⟩ := Option.bind_eq_some_iff.mp h
    obtain ⟨_, _, rfl⟩ := Option.map_eq_some_iff.mp h
    exact ⟨rfl, fun _ => rfl⟩

/-- What a function of texts, of dates and times or of two values computes. -/
theorem hasResult_of_computed
    (h : ((f.text? args).orElse fun _ => (f.temporal? args).orElse fun _ => f.comparison? args) = some w) :
    f.HasResult w := by
  simp only [Option.orElse_eq_or, Option.or_eq_some_iff] at h
  rcases h with h | ⟨-, h | ⟨-, h⟩⟩
  · exact hasResult_of_text? h
  · exact hasResult_of_temporal? h
  · exact hasResult_of_comparison? h

/-- Whether the function rounds a number, to one of its own type. -/
def isRounding : ScalarFunction → Bool
  | .round | .floor | .ceiling => true
  | _ => false

theorem roundValue_nullSafe (mode : Number.Rounding) {v : Value} (hv : v.isNull = false) :
    (roundValue f mode v).NullSafe fun w => w.isAtom = true ∧ v.isPlain = true := by
  unfold roundValue
  split
  next => exact ⟨rfl, rfl⟩
  next hx _ =>
    exact (Value.ofFloat_nullSafe _ _).mono fun w hw => ⟨hw.1, Value.isPlain_of_asFloat? hx⟩
  next => simp [Outcome.Meets, EvalError.fail, Error.isNullError, EvalError.isNullError, hv]

theorem convert_value_nullSafe {v : Value} (hv : v.isNull = false) {t : HostType}
    (ht : t.isValueType = true) : (v.convert t).NullSafe fun w => w.isPlain = true := by
  have hatomic : t.nonNullable.isAtomic = true := by
    rw [HostType.nonNullable_of_isValueType ht]
    exact HostType.isAtomic_of_isValueType ht
  refine (Value.convert_plain (s := .empty) (HostType.isPlain_of_isAtomic hatomic) ?_).mono ?_
  · intro hnull
    rw [hv] at hnull
    cases hnull
  · exact fun w hw => hw.isPlain_of_isValueType ht

/-- **A function of values that are not null gives a plain value.** If it rounds, it is one of its
argument's type. -/
theorem apply_nullSafe [External] (hargs : ∀ v ∈ args, v.isNull = false) :
    (f.apply args).NullSafe fun w =>
      w.isPlain = true ∧ (f.isRounding = true → ∃ v rest, args = v :: rest ∧ v.isPlain = true) := by
  have rounded {mode : Number.Rounding} {v : Value} (hv : ∀ a ∈ [v], a.isNull = false) :
      (roundValue f mode v).NullSafe fun w =>
        w.isPlain = true ∧ (f.isRounding = true → ∃ a rest, [v] = a :: rest ∧ a.isPlain = true) :=
    (roundValue_nullSafe mode (hv v List.mem_cons_self)).mono fun w hw =>
      ⟨Value.isPlain_of_isAtom hw.1, fun _ => ⟨v, [], rfl, hw.2⟩⟩
  unfold apply
  split
  next =>
    rw [positionOf_eq]
    exact ⟨rfl, fun h => by cases h⟩
  next =>
    unfold matchPattern
    split
    next => exact ⟨rfl, fun h => by cases h⟩
    next => exact rfl
  next v =>
    refine (convert_value_nullSafe (hargs v List.mem_cons_self) rfl).mono fun w hw => ⟨hw, fun h => ?_⟩
    cases h
  next v =>
    refine (convert_value_nullSafe (hargs v List.mem_cons_self) rfl).mono fun w hw => ⟨hw, fun h => ?_⟩
    cases h
  next => exact rounded hargs
  next => exact rounded hargs
  next => exact rounded hargs
  next =>
    refine .orFail (List.any_eq_false.mpr fun v hv => by simp [hargs v hv]) fun w hw => ⟨?_, fun h => ?_⟩
    · exact Value.isPlain_of_isAtom (hasResult_of_computed hw).1
    · cases f <;> first | (cases h; done) | cases hw

/-- Comparisons of values of which some may be null. -/
theorem apply_ordinal_nullSafe [External] (hf : f = .compare ∨ f = .bytesEqual) (a b : Value) :
    (f.apply [a, b]).NullSafe fun w => w.isPlain = true := by
  by_cases hnull : a.isNull = false ∧ b.isNull = false
  · refine (apply_nullSafe ?_).mono fun w hw => hw.1
    simpa using hnull
  · have hcomparison : (f.comparison? [a, b]).isSome = true := by
      rcases hf with rfl | rfl <;> cases a <;> cases b <;>
        first | rfl | exact absurd ⟨rfl, rfl⟩ hnull
    obtain ⟨w, hw⟩ := Option.isSome_iff_exists.mp hcomparison
    have happly : f.apply [a, b] = .ok w := by
      rcases hf with rfl | rfl <;> simp [apply, text?, temporal?, hw, orFail]
    rw [happly]
    exact Value.isPlain_of_isAtom (hasResult_of_comparison? hw).1

end ScalarFunction

end TypedQuery
