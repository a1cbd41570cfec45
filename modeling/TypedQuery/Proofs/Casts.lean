import TypedQuery.Proofs.OperatorTypes
import TypedQuery.Proofs.Rewriting

/-!
# Casts

A cast gives a value of its target that stands for what is cast, or null if there is none. The one thing
that it does not answer with null is a value that is out of range: an integer that the target's width
does not hold, for which it fails, and an instant whose date no calendar has, for which the program stops.
The cast of a value of any type asks for its type first and is null instead.

* `Value.Misfits`: the values out of range.
* `Value.Becomes`: what a value becomes in a cast.
* `Value.MayVanish`: what a cast gives null for.
* `Outcome.IsCast`: what the value becomes, null for what may vanish, or an error for a value out of range.
* **`casts_give_null_or_values`**: the casts of queries.
* `casts_fail_out_of_range`: a number that is no byte.
-/

namespace TypedQuery

/-! ## Casts of values -/

namespace Value

/-- The integer of a number or of a value of an enumeration; a fraction is dropped. -/
def wholeNumber? : Value → Option Int
  | .single x => some (Number.truncate128 x.widen)
  | .double x | .decimal x => some (Number.truncate128 x.toFloat)
  | v => v.asInt?

/-- Whether a value has a place in a type that it is converted to. -/
def HasPlace (v : Value) (target : HostType) : Prop :=
  match target with
  | .int w => ∀ n, v.wholeNumber? = some n → w.Holds n
  | .date => ∀ t, v = .dateTimeOffset t → t.shown?.isSome = true
  | _ => True

/-- Whether a value of a type is out of range: it is converted to the target, but has no place there. -/
def Misfits (v : Value) (source target : HostType) : Prop :=
  Bind.isConvertible source target = true ∧ ¬v.HasPlace target

/-- What a value may become in a cast: itself, or what stands for it in another type. -/
inductive Becomes (v : Value) : Value → Prop
  | same : Becomes v v
  /-- The integer, without the fraction. -/
  | whole {n : SizedInt} (h : v.wholeNumber? = some n.val) : Becomes v (.int n)
  /-- The nearest number of single precision. -/
  | single {x : Float} {y : Binary32} (h : v.asFloat? = some x) (hy : y.toFloat32 = Number.narrow x) :
    Becomes v (.single y)
  | double {x : Binary64} (h : v.asFloat? = some x.toFloat) : Becomes v (.double x)
  | decimal {x : Binary64} (h : v.asFloat? = some x.toFloat) : Becomes v (.decimal x)
  /-- The date of a time stamp, of an instant the one that its offset shows. -/
  | date {d : Date} (h : v.dayPart? = some d.day) : Becomes v (.date d)
  /-- A time stamp in universal time. -/
  | stamp {t : DateTime} (h : v = .dateTime t) : Becomes v (.dateTimeOffset (.ofUtc t))
  /-- The start of a day in universal time. -/
  | start {d : Date} (h : v = .date d) : Becomes v (.dateTimeOffset (.ofUtc ⟨d, .midnight⟩))
  /-- The time of day that is reached a span after midnight, some days later if it is long. -/
  | clock {s : Span} (h : v = .timeSpan s) : Becomes v (.timeOfDay (Time.midnight.add s).1)
  /-- The value of an enumeration that a text spells. -/
  | spelled {text : String} {enum : EnumType} {n : Int64} (h : v = .string text)
    (hn : enum.parse? text = some n) : Becomes v (.enum enum.name n)

end Value

/-- Whether a cast may lose a value: null, and what would have to be converted between types that are not. -/
def Value.MayVanish (v : Value) (source target : HostType) : Prop :=
  v.isNull = true ∨ (source.nonNullable ≠ target ∧ Bind.isConvertible source target = false)

/-- How the cast of a value that is out of range ends: a number has no value in its type, and where the calendar has no
date the program stops. -/
def Error.EndsCast (target : HostType) (err : Error) : Prop :=
  if target = .date then err = .aborted else err.isRangeError = true

/-- The outcome is that of a cast: an error for a value that is out of range, and for any other one a value of the
target that it becomes, or null if it may vanish. -/
def Outcome.IsCast (v : Value) (source target : HostType) (o : Outcome Value) : Prop :=
  (v.Misfits source target → ∃ err, o = .error err ∧ err.EndsCast target) ∧
    (¬v.Misfits source target →
      ∃ w, o = .ok w ∧
        ((w = .null ∧ v.MayVanish source target) ∨ (w.isInstanceOf target = true ∧ v.Becomes w)))

namespace Value

variable {v : Value} {source target : HostType}

theorem hasPlace_null (target : HostType) : Value.null.HasPlace target := by
  unfold HasPlace
  split
  · intro n hn
    cases hn
  · intro t ht
    cases ht
  · exact trivial

/-- What may vanish is not out of range. -/
theorem MayVanish.not_misfits (h : v.MayVanish source target) : ¬v.Misfits source target := by
  rintro ⟨hconvertible, hplace⟩
  rcases h with hnull | ⟨-, hnone⟩
  · rw [eq_null hnull] at hplace
    exact hplace (hasPlace_null target)
  · rw [hnone] at hconvertible
    cases hconvertible

end Value

namespace Outcome

variable {v w : Value} {source target : HostType} {o : Outcome Value}

theorem isCast_of_error {err : Error} (h : v.Misfits source target) (ho : o = .error err)
    (herr : err.EndsCast target) : o.IsCast v source target :=
  ⟨fun _ => ⟨err, ho, herr⟩, fun hfits => absurd h hfits⟩

theorem isCast_of_ok (h : v.HasPlace target) (ho : o = .ok w) (hw : w.isInstanceOf target = true)
    (hbecomes : v.Becomes w) : o.IsCast v source target :=
  ⟨fun hmisfit => absurd h hmisfit.2, fun _ => ⟨w, ho, .inr ⟨hw, hbecomes⟩⟩⟩

theorem isCast_of_null (h : v.MayVanish source target) (ho : o = .ok .null) : o.IsCast v source target :=
  ⟨fun hmisfit => absurd hmisfit h.not_misfits, fun _ => ⟨.null, ho, .inl ⟨rfl, h⟩⟩⟩

end Outcome

namespace Bind

/-- The types that are converted to a different one without null in a cast. -/
inductive Castable (t : HostType) : HostType → Prop
  | numbers {u : HostType} (ht : t.isNumeric = true) (hu : u.isNumeric = true) : Castable t u
  | ofEnum {u : HostType} (ht : t.asEnum?.isSome = true) (hu : u.isIntegral = true) : Castable t u
  | dateOfStamp (ht : t.nonNullable = .dateTime) : Castable t .date
  | dateOfInstant (ht : t.nonNullable = .dateTimeOffset) : Castable t .date
  | instantOfStamp (ht : t.nonNullable = .dateTime) : Castable t .dateTimeOffset
  | instantOfDate (ht : t.nonNullable = .date) : Castable t .dateTimeOffset
  | timeOfSpan (ht : t.nonNullable = .timeSpan) : Castable t .timeOfDay

variable {t target : HostType}

theorem castable_of_isConvertible (h : isConvertible t target = true) (hne : t.nonNullable ≠ target)
    (htarget : target.nonNullable = target) : Castable t target := by
  unfold isConvertible isIdentity at h
  simp only [Bool.or_eq_true, Bool.and_eq_true] at h
  rw [htarget] at h
  rcases h with ((⟨ht, hu⟩ | ⟨ht, hu⟩) | ⟨hsame, -⟩) | hinstant
  · exact .numbers ht hu
  · exact .ofEnum ht hu
  · split at hsame
    next ht => exact absurd ht hne
    next ht => exact .dateOfStamp ht
    next ht => exact absurd ht hne
    next ht => exact .instantOfStamp ht
    next ht => exact absurd ht hne
    next ht => exact .timeOfSpan ht
    next ht => exact absurd ht hne
    next => cases hsame
  · split at hinstant
    next ht => exact .instantOfDate ht
    next ht => exact .dateOfInstant ht
    next => cases hinstant

theorem Castable.isValueType (h : Castable t target) : t.nonNullable.isValueType = true := by
  cases h with
  | numbers ht _ => exact HostType.isValueType_of_isNumeric ht
  | ofEnum ht _ => exact HostType.isValueType_of_asEnum? ht
  | _ ht =>
    rw [ht]
    rfl

/-- No number, date or time becomes the value of an enumeration. -/
theorem Castable.asEnum?_eq_none (h : Castable t target) : target.asEnum? = none := by
  cases h with
  | numbers _ hu =>
    unfold HostType.asEnum?
    rcases HostType.isNumeric_iff.mp hu with ⟨w, hw⟩ | hfloat | hfloat | hfloat
    · rw [hw]
    all_goals rw [hfloat]
  | ofEnum _ hu =>
    obtain ⟨w, hw⟩ := HostType.isIntegral_iff.mp hu
    unfold HostType.asEnum?
    rw [hw]
  | _ => rfl

end Bind

namespace Value

variable {v : Value} {source target T : HostType} {w : IntWidth}

/-- An integer, or what is brought to one, converts to a width that holds it. -/
theorem convert_whole {n : Int} (hv : v.wholeNumber? = some n) (hT : T.nonNullable = .int w) :
    v.convert T = orFail (.overflow n (.int w)) ((SizedInt.ofInt? w n).map .int) := by
  cases v <;> first | (cases hv; done) | exact convert_integral hv hT | skip
  all_goals
    cases hv
    rw [convert_of_not_isInstanceOf rfl (by simp) hT rfl]
    unfold convertScalar
    rw [hT]
    rfl

theorem isCast_whole {n : Int} (hconvertible : Bind.isConvertible source (.int w) = true)
    (hv : v.wholeNumber? = some n) (hT : T.nonNullable = .int w) :
    (v.convert T).IsCast v source (.int w) := by
  have hconvert := convert_whole hv hT
  by_cases hn : w.Holds n
  · rw [SizedInt.ofInt?, dif_pos hn] at hconvert
    refine Outcome.isCast_of_ok ?_ hconvert (by simp [isInstanceOf, HostType.nonNullable, hostType?]) (.whole hv)
    intro m hm
    cases hv.symm.trans hm
    exact hn
  · rw [SizedInt.ofInt?, dif_neg hn] at hconvert
    exact Outcome.isCast_of_error ⟨hconvertible, fun h => hn (h n hv)⟩ hconvert rfl

theorem wholeNumber?_of_isNumber (hv : v.isNumber = true) : ∃ n, v.wholeNumber? = some n := by
  cases v <;> first | exact ⟨_, rfl⟩ | cases hv

/-- A number becomes one of any floating-point type. -/
theorem isCast_float (hv : v.isNumber = true) (hT : T.nonNullable = target)
    (htarget : target = .single ∨ target = .double ∨ target = .decimal) :
    (v.convert T).IsCast v source target := by
  have hplace : v.HasPlace target := by rcases htarget with rfl | rfl | rfl <;> exact trivial
  have hnull : v.isNull = false := by cases v <;> first | rfl | cases hv
  have hitems (items : List Value) : v ≠ .collection items := by
    rintro rfl
    cases hv
  have hconvert : v.convert T = _ := convert_of_not_collection hnull hitems
  by_cases hinstance : v.isInstanceOf target = true
  · rw [hT, if_pos hinstance] at hconvert
    exact Outcome.isCast_of_ok hplace hconvert hinstance .same
  · obtain ⟨x, hx, hnumber⟩ := asFloat?_of_isNumber hv
    rw [hT, if_neg hinstance, convertScalar_float hv hx (by rwa [hT]), hT] at hconvert
    rcases htarget with rfl | rfl | rfl
    · exact Outcome.isCast_of_ok hplace (hconvert.trans (ofFloat_single hnumber)) rfl (.single hx rfl)
    · exact Outcome.isCast_of_ok hplace (hconvert.trans (ofFloat_double hnumber)) rfl (.double hx)
    · exact Outcome.isCast_of_ok hplace (hconvert.trans (ofFloat_decimal hnumber)) rfl (.decimal hx)

/-- A value of an enumeration has a number. -/
theorem wholeNumber?_of_asEnum? (hv : v.isInstanceOf source = true) (ht : source.asEnum?.isSome = true) :
    ∃ n, v.wholeNumber? = some n := by
  unfold HostType.asEnum? at ht
  have hform := hasForm_of_isInstanceOf hv
  generalize source.nonNullable = u at ht hform
  cases u <;> first | (cases ht; done) | skip
  obtain ⟨n, rfl⟩ := hform
  exact ⟨_, rfl⟩

/-- An instant becomes the date that its offset shows, if the calendar has it. -/
theorem isCast_dateOfInstant (t : OffsetDateTime) (hconvertible : Bind.isConvertible source .date = true)
    (hT : T.nonNullable = .date) :
    ((Value.dateTimeOffset t).convert T).IsCast (.dateTimeOffset t) source .date := by
  have hconvert : (Value.dateTimeOffset t).convert T =
      orAbort (t.shown?.map fun d => .date d.date) := by
    rw [convert_of_not_isInstanceOf rfl (by simp) hT rfl]
    unfold convertScalar
    rw [hT]
  cases hshown : t.shown? with
  | none =>
    rw [hshown] at hconvert
    refine Outcome.isCast_of_error ⟨hconvertible, fun hplace => ?_⟩ hconvert rfl
    have hsome := hplace t rfl
    rw [hshown] at hsome
    cases hsome
  | some d =>
    rw [hshown] at hconvert
    have hday : t.day = d.date.day := by
      unfold OffsetDateTime.shown? Date.ofDay? at hshown
      split_ifs at hshown
      · cases hshown
        rfl
      · cases hshown
    refine Outcome.isCast_of_ok (fun u hu => ?_) hconvert rfl (.date (congrArg some hday))
    cases hu
    rw [hshown]
    rfl

/-- A value that is converted as its kind of value is. -/
theorem isCast_scalar {u : Value} (hnull : v.isNull = false) (hitems : ∀ items, v ≠ .collection items)
    (hT : T.nonNullable = target) (hinstance : v.isInstanceOf target = false)
    (hscalar : convertScalar v T = .ok u) (hplace : v.HasPlace target) (hu : u.isInstanceOf target = true)
    (hbecomes : v.Becomes u) : (v.convert T).IsCast v source target :=
  Outcome.isCast_of_ok hplace ((convert_of_not_isInstanceOf hnull hitems hT hinstance).trans hscalar) hu hbecomes

/-- **A value that is converted in a cast** becomes one of the target, unless it is out of range. -/
theorem isCast_convert (hconvertible : Bind.isConvertible source target = true)
    (hne : source.nonNullable ≠ target) (htarget : target.nonNullable = target) (hT : T.nonNullable = target)
    (hv : v.isInstanceOf source = true) : (v.convert T).IsCast v source target := by
  have hform := hasForm_of_isInstanceOf hv
  cases Bind.castable_of_isConvertible hconvertible hne htarget with
  | numbers ht hu =>
    have hnumber := isNumber_of_isInstanceOf hv ht
    rcases HostType.isNumeric_iff.mp hu with ⟨w, hw⟩ | hfloat
    · obtain ⟨n, hn⟩ := wholeNumber?_of_isNumber hnumber
      rw [htarget] at hw
      subst hw
      exact isCast_whole hconvertible hn hT
    · rw [htarget] at hfloat
      exact isCast_float hnumber hT hfloat
  | ofEnum ht hu =>
    obtain ⟨w, hw⟩ := HostType.isIntegral_iff.mp hu
    obtain ⟨n, hn⟩ := wholeNumber?_of_asEnum? hv ht
    rw [htarget] at hw
    subst hw
    exact isCast_whole hconvertible hn hT
  | dateOfStamp ht =>
    rw [ht] at hform
    obtain ⟨t, rfl⟩ := hform
    refine isCast_scalar (u := .date t.date) rfl (by simp) hT rfl ?_ (fun u hu => ?_) rfl (.date rfl)
    · unfold convertScalar
      rw [hT]
    · cases hu
  | dateOfInstant ht =>
    rw [ht] at hform
    obtain ⟨t, rfl⟩ := hform
    exact isCast_dateOfInstant t hconvertible hT
  | instantOfStamp ht =>
    rw [ht] at hform
    obtain ⟨t, rfl⟩ := hform
    exact Outcome.isCast_of_ok trivial (convert_dateTime t hT) rfl (.stamp rfl)
  | instantOfDate ht =>
    rw [ht] at hform
    obtain ⟨d, rfl⟩ := hform
    refine isCast_scalar (u := .dateTimeOffset (.ofUtc ⟨d, .midnight⟩)) rfl (by simp) hT rfl ?_ trivial rfl (.start rfl)
    unfold convertScalar
    rw [hT]
  | timeOfSpan ht =>
    rw [ht] at hform
    obtain ⟨s, rfl⟩ := hform
    refine isCast_scalar (u := .timeOfDay (Time.midnight.add s).1) rfl (by simp) hT rfl ?_ trivial rfl (.clock rfl)
    unfold convertScalar
    rw [hT]

end Value

/-! ## Casts of expressions -/

namespace Value

variable {v : Value} {target : HostType}

theorem hasPlace_of_isInstanceOf (h : v.isInstanceOf target = true) : v.HasPlace target := by
  unfold HasPlace
  split
  · intro n hn
    cases v <;> first | (simp [isInstanceOf, HostType.nonNullable, hostType?] at h; done) | skip
    case int m =>
      obtain rfl : m.width = _ := by simpa [isInstanceOf, HostType.nonNullable, hostType?] using h
      cases hn
      exact m.fits
  · rintro t rfl
    cases h
  · exact trivial

end Value

namespace Bind

variable [External] {s : Schema} {env : Env} {x : Expr} {v : Value} {target : HostType}

/-- A cast to an enumeration gives the value that a literal text spells, and null for anything else. -/
theorem castToEnum_isCast {enum : EnumType} (hx : x.eval env = .ok v) (henum : target.asEnum? = some enum)
    (hne : x.type.nonNullable ≠ target) (htarget : target.nonNullable = target) :
    ((castToEnum x target enum).eval env).IsCast v x.type target := by
  have hconvertible : isConvertible x.type target = false := by
    by_contra h
    have hnone := (castable_of_isConvertible (by simpa using h) hne htarget).asEnum?_eq_none
    rw [henum] at hnone
    cases hnone
  obtain ⟨hplace, hname⟩ : v.HasPlace target ∧ ∀ n, (Value.enum enum.name n).isInstanceOf target = true := by
    unfold HostType.asEnum? at henum
    rw [htarget] at henum
    split at henum
    · cases henum
      exact ⟨trivial, fun n => by simp [Value.isInstanceOf, HostType.nonNullable]⟩
    · cases henum
  have hnone {o : Outcome Value} (ho : o = .ok .null) : o.IsCast v x.type target :=
    Outcome.isCast_of_null (.inr ⟨hne, hconvertible⟩) ho
  unfold castToEnum
  split
  next text hconst =>
    have htext : v = .string text := Except.ok.inj (hx.symm.trans (Expr.eval_of_constValue? hconst env))
    split
    next n hn => exact Outcome.isCast_of_ok hplace rfl (hname n) (.spelled htext hn)
    next => exact hnone rfl
  next => exact hnone rfl

/-- A cast to a record type gives the record if it has the type, and null for anything else. -/
theorem castToRecord_isCast {name : String} (hx : x.eval env = .ok v) (hne : x.type.nonNullable ≠ .record name) :
    ((Expr.mkTypeAs x (.record name)).eval env).IsCast v x.type (.record name) := by
  have htest : (Expr.mkTypeAs x (.record name)).eval env =
      .ok (if v.isInstanceOf (.record name) then v else .null) := by
    rw [Expr.mkTypeAs, Expr.eval, hx]
    rfl
  by_cases hv : v.isInstanceOf (.record name) = true
  · rw [if_pos hv] at htest
    exact Outcome.isCast_of_ok trivial htest hv .same
  · rw [if_neg hv] at htest
    refine Outcome.isCast_of_null (.inr ⟨hne, ?_⟩) htest
    by_contra hconvertible
    cases castable_of_isConvertible (by simpa using hconvertible) hne rfl with
    | numbers _ hu => cases hu
    | ofEnum _ hu => cases hu

/-- A cast between types that are converted. -/
theorem convert_isCast (hx : x.HasValue s env v) (hconvertible : isConvertible x.type target = true)
    (hne : x.type.nonNullable ≠ target) (htarget : target.nonNullable = target) :
    ((Expr.convert x (target.nullableLike x.type)).eval env).IsCast v x.type target := by
  have heval : (Expr.convert x (target.nullableLike x.type)).eval env =
      v.convert (target.nullableLike x.type) := by
    rw [Expr.eval, hx.1]
    rfl
  rw [heval]
  cases hnull : v.isNull with
  | true =>
    have hvalue := (castable_of_isConvertible hconvertible hne htarget).isValueType
    have hnullable := HostType.isNullable_nullableLike target hvalue (Schema.isNullable_of_admits hx.2 hnull)
    refine Outcome.isCast_of_null (.inl hnull) ?_
    rw [Value.eq_null hnull]
    unfold Value.convert
    exact if_pos hnullable
  | false =>
    have hkind : (target.nullableLike x.type).nonNullable = target :=
      (HostType.nonNullable_nullableLike _ _).trans htarget
    exact Value.isCast_convert hconvertible hne htarget hkind (Schema.isInstanceOf_of_admits hx.2 hnull)

/-- **A cast of an expression** whose type is not that of any value. -/
theorem cast_isCast (hx : x.HasValue s env v) (hobject : x.type.isObject = false)
    (htarget : target.nonNullable = target) : ((cast x target).eval env).IsCast v x.type target := by
  unfold cast
  by_cases hconst : x.isNullConst = true
  · rw [if_pos hconst]
    refine Outcome.isCast_of_null (.inl ?_) rfl
    by_contra hnull
    rw [Expr.isNullConst_of_eval hx.1 (by simpa using hnull)] at hconst
    cases hconst
  rw [if_neg hconst]
  by_cases hsame : x.type.nonNullable = target
  · rw [if_pos hsame]
    cases hnull : v.isNull with
    | true =>
      refine Outcome.isCast_of_null (.inl hnull) ?_
      rw [hx.1, Value.eq_null hnull]
    | false =>
      have hv : v.isInstanceOf target = true := by
        rw [← v.isInstanceOf_congr (hsame.trans htarget.symm)]
        exact Schema.isInstanceOf_of_admits hx.2 hnull
      exact Outcome.isCast_of_ok (Value.hasPlace_of_isInstanceOf hv) hx.1 hv .same
  rw [if_neg hsame, hobject, if_neg Bool.false_ne_true]
  split
  next enum _ henum => exact castToEnum_isCast hx.1 henum hsame htarget
  next name _ => exact castToRecord_isCast hx.1 hsame
  next target _ _ _ _ =>
    by_cases hconvertible : isConvertible x.type target = true
    · rw [if_pos hconvertible]
      exact convert_isCast hx hconvertible hsame htarget
    · rw [if_neg hconvertible]
      exact Outcome.isCast_of_null (.inr ⟨hsame, by simpa using hconvertible⟩) rfl

end Bind

namespace Bind

variable {sub : Node → BindM Expr} {ctx c c' : Context} {source : Node} {typeName : String}
  {type : Option LogicalType} {e : Expr} {target : HostType}

/-- The types that have a name are without null. -/
theorem nonNullable_namedType (h : namedType ctx typeName = .ok target) : target.nonNullable = target := by
  unfold namedType at h
  dsimp only at h
  split at h
  next t ht =>
    cases h
    split at ht
    next p _ =>
      cases ht
      cases p <;> rfl
    next =>
      rw [Option.orElse_eq_or, Option.or_eq_some_iff] at ht
      rcases ht with henum | ⟨-, hrecord⟩
      · obtain ⟨enum, -, rfl⟩ := Option.map_eq_some_iff.mp henum
        rfl
      · unfold Schema.hostType? at hrecord
        split_ifs at hrecord
        cases hrecord
        rfl
  next => cases h

/-- What a cast is bound to: the type is looked up, then the source is bound. -/
theorem typeFunction_eq_ok
    (h : typeFunction sub "cast" [source, .constant (.string typeName) type] c = (.ok e, c')) :
    ∃ x target, namedType c typeName = .ok target ∧ sub source c = (.ok x, c') ∧ e = cast x target := by
  obtain ⟨target, c₁, htarget, h⟩ := BindM.exists_of_bind_eq_ok h
  obtain ⟨x, c₂, hx, h⟩ := BindM.exists_of_bind_eq_ok h
  cases h
  obtain rfl : c = c₁ := congrArg Prod.snd htarget
  exact ⟨x, target, congrArg Prod.fst htarget, hx, rfl⟩

end Bind

/-- **Casts give null or values of their target**: a call of `cast` that binding accepts, of a source whose type is not
that of any value, has a value wherever the source has one of its type, unless that is out of range. It is null only
for null and between types that are not converted. -/
theorem casts_give_null_or_values [External] {ctx : Context} {name typeName : String} {source : Node}
    {type : Option LogicalType} {e : Expr} (hname : Text.asciiLower name = "cast")
    (h : ((Node.call name [source, .constant (.string typeName) type]).bind ctx).1 = .ok e) :
    ∃ x target, (source.bind ctx.deeper).1 = .ok x ∧ Bind.namedType ctx typeName = .ok target ∧
      (x.type.isObject = false → ∀ s env v, x.HasValue s env v → (e.eval env).IsCast v x.type target) := by
  have hroom := Node.lt_of_bind_eq_ok h
  rw [Node.bind_of_lt _ hroom] at h
  change (Bind.call _ name _ ctx.deeper).1 = _ at h
  unfold Bind.call at h
  rw [hname, if_pos (.inl rfl)] at h
  obtain ⟨x, target, htarget, hx, rfl⟩ := Bind.typeFunction_eq_ok (Prod.ext h rfl)
  refine ⟨x, target, congrArg Prod.fst hx, htarget, fun hobject s env v hv => ?_⟩
  exact Bind.cast_isCast hv hobject (Bind.nonNullable_namedType htarget)

/-- A number that is cast to a byte. -/
def byteCast (n : Int32) : Node :=
  .call "cast" [.constant (.int32 n) none, .constant (.string "Edm.Byte") none]

/-- Two hundred is a byte. -/
theorem casts_give_null_or_values_of_bytes :
    ∃ e w, ((byteCast 200).bind plainContext).1 = .ok e ∧ e.eval [] = .ok w ∧
      w.isInstanceOf (.int .byte) = true ∧ (Value.int32 200).Becomes w := by
  obtain ⟨e, he⟩ : ∃ e, ((byteCast 200).bind plainContext).1 = .ok e := ⟨_, rfl⟩
  obtain ⟨x, target, hx, htarget, hcast⟩ := casts_give_null_or_values (by decide +kernel) he
  obtain rfl : HostType.int .byte = target := Except.ok.inj htarget
  cases hx
  obtain ⟨-, hvalue⟩ := hcast rfl .empty [] (.int32 200) ⟨rfl, rfl⟩
  obtain ⟨w, hw, ⟨-, hvanish | hvanish⟩ | hbecomes⟩ := hvalue fun hmisfit => hmisfit.2 fun n hn => by
    cases hn
    decide
  · cases hvanish
  · cases hvanish.2
  · exact ⟨e, w, he, hw, hbecomes⟩

/-- A thousand is no byte: the cast is bound, its source has a value of its type, and it fails. -/
theorem casts_fail_out_of_range :
    ∃ x e, ((Node.constant (.int32 1000) none).bind plainContext.deeper).1 = .ok x ∧
      ((byteCast 1000).bind plainContext).1 = .ok e ∧ x.HasValue .empty [] (.int32 1000) ∧
      x.type = .int .int32 ∧ e.type = .int .byte ∧
      e.eval [] = .error (.evaluation (.overflow 1000 (.int .byte))) :=
  ⟨_, _, rfl, rfl, ⟨rfl, rfl⟩, rfl, rfl, rfl⟩

end TypedQuery
