import TypedQuery.Proofs.Conformance

/-!
# Values that a type admits

Which values a schema has for a type, as far as values show it when they run: null at the nullable types,
a record with exactly the members of its type, and a collection of values of the type of its items. A value
of a type converts to that type, with null or without, as it is, and a number of a type is one of that type
unless it is out of range.

* `EvalError.isRangeError`: the failures of operations whose result is out of range.
* `Value.HasForm`, `Value.hasForm_of_isInstanceOf`: what the values of a type look like.
* `Schema.admits`: whether a value is one of a type.
* `Schema.admits_record_iff`, `Schema.admits_collection_iff`: what is inside the values of a type.
* **`Schema.convert_of_admits`**: a conversion that changes nullability only.
* `Value.ofInt_inRange`, `Value.ofFloat_inRange`: numbers of a type.
-/

namespace TypedQuery

/-! ## Failures of operations that have no result -/

/-- Whether an operation failed because its result does not exist or does not fit: an overflow, a division
by zero, or no number. -/
def EvalError.isRangeError : EvalError → Bool
  | .overflow .. | .arithmetic .. | .decimalDivisionByZero | .notANumber => true
  | _ => false

/-- Whether an error is that of an operation whose result is out of range. -/
def Error.isRangeError : Error → Bool
  | .evaluation cause => cause.isRangeError
  | _ => false

/-- The outcome is a result with a property, or a result would be out of range. -/
abbrev Outcome.InRange {α : Type} (P : α → Prop) (o : Outcome α) : Prop :=
  o.Meets (fun e => e.isRangeError = true) P

theorem Outcome.Meets.weaken {α : Type} {E E' : Error → Prop} {P : α → Prop} {o : Outcome α}
    (ho : o.Meets E P) (h : ∀ e, E e → E' e) : o.Meets E' P := by
  cases o with
  | error e => exact h e ho
  | ok a => exact ho

/-! ## Values of a type -/

namespace Value

variable {v : Value} {t : HostType}

/-- The value looks like those of a type without null. -/
def HasForm (v : Value) : HostType → Prop
  | .bool => ∃ b, v = .bool b
  | .int w => ∃ n, ∃ hn : w.Holds n, v = .int ⟨w, n, hn⟩
  | .single => ∃ x, v = .single x
  | .double => ∃ x, v = .double x
  | .decimal => ∃ x, v = .decimal x
  | .char => ∃ c, v = .char c
  | .charArray => ∃ chars, v = .charArray chars
  | .string => ∃ text, v = .string text
  | .bytes => ∃ bytes, v = .bytes bytes
  | .xml => ∃ text, v = .xml text
  | .guid => ∃ g, v = .guid g
  | .date => ∃ d, v = .date d
  | .dateTime => ∃ d, v = .dateTime d
  | .dateTimeOffset => ∃ d, v = .dateTimeOffset d
  | .timeOfDay => ∃ d, v = .timeOfDay d
  | .timeSpan => ∃ d, v = .timeSpan d
  | .enum name .. => ∃ n, v = .enum name n
  | .record name => ∃ fields, v = .record name fields
  | .collection _ => ∃ items, v = .collection items
  | _ => True

/-- **The form of the values of a type.** -/
theorem hasForm_of_isInstanceOf (h : v.isInstanceOf t = true) : v.HasForm t.nonNullable := by
  unfold isInstanceOf at h
  generalize t.nonNullable = u at h
  cases u <;> first | exact trivial | skip
  all_goals cases v <;> first | exact ⟨_, rfl⟩ | (simp [hostType?] at h; done) | skip
  case int.int w n =>
    obtain rfl : n.width = w := by simpa [hostType?] using h
    exact ⟨n.val, n.fits, rfl⟩
  case enum.enum =>
    obtain rfl := of_decide_eq_true h
    exact ⟨_, rfl⟩
  case record.record =>
    obtain rfl := of_decide_eq_true h
    exact ⟨_, rfl⟩

end Value

namespace Schema

/-- Whether names are those of the members of a record type, each of them once, in any order. -/
def hasMembers (s : Schema) (typeName : String) (names : List String) : Bool :=
  match s.record? typeName with
  | some r => names.isPerm (Entries.names r.members)
  | none => false

mutual

/-- Whether a value is one of a type. -/
def admits (s : Schema) (t : HostType) (v : Value) : Bool :=
  match v with
  | .null => t.isNullable
  | .record typeName fields =>
    match t.nonNullable with
    | .object => true
    | .record name =>
      typeName == name && s.hasMembers name (Entries.names fields) && admitsFields s name fields
    | _ => false
  | .collection items =>
    match t.nonNullable with
    | .object => true
    | .collection element => admitsItems s element items
    | _ => false
  | v => v.isInstanceOf t
termination_by structural v

/-- Whether all items are of a type. -/
def admitsItems (s : Schema) (t : HostType) (items : List Value) : Bool :=
  match items with
  | [] => true
  | v :: rest => admits s t v && admitsItems s t rest
termination_by structural items

/-- Whether all fields are members of a record type and have values of their types. -/
def admitsFields (s : Schema) (typeName : String) (fields : List (String × Value)) : Bool :=
  match fields with
  | [] => true
  | (name, v) :: rest =>
    (match s.member? typeName name with
      | some m => admits s m.type v
      | none => false) && admitsFields s typeName rest
termination_by structural fields

end

attribute [local simp] admits admitsItems admitsFields

variable {s : Schema} {t target : HostType} {v : Value}

theorem admitsItems_eq_all (s : Schema) (t : HostType) (items : List Value) :
    s.admitsItems t items = items.all (s.admits t) := by
  induction items with
  | nil => rfl
  | cons v rest ih => rw [admitsItems, List.all_cons, ih]

theorem admitsFields_eq_all (s : Schema) (typeName : String) (fields : List (String × Value)) :
    s.admitsFields typeName fields = fields.all fun f =>
      (s.member? typeName f.1).any fun m => s.admits m.type f.2 := by
  induction fields with
  | nil => rfl
  | cons f rest ih =>
    rw [admitsFields, List.all_cons, ih]
    cases s.member? typeName f.1 <;> rfl

/-- Null is a value of the nullable types. -/
@[simp]
theorem admits_null (s : Schema) (t : HostType) : s.admits t .null = t.isNullable := rfl

/-- Every value is an object. -/
theorem admits_object (s : Schema) (ht : t.nonNullable = .object) (v : Value) : s.admits t v = true := by
  have hnull : t.isNullable = true := by cases t <;> first | rfl | cases ht
  cases v <;> simp [Value.isInstanceOf, ht, hnull]

/-- A value that is not null is one of a type whether or not the type has null. -/
theorem admits_congr (ht : t.nonNullable = target.nonNullable) (hv : v.isNull = false) :
    s.admits t v = s.admits target v := by
  cases v with
  | null => cases hv
  | _ => simp only [admits, Value.isInstanceOf, ht]

theorem isNullable_of_admits (h : s.admits t v = true) (hv : v.isNull = true) : t.isNullable = true := by
  obtain rfl := Value.eq_null hv
  exact h

theorem isInstanceOf_of_admits (h : s.admits t v = true) (hv : v.isNull = false) :
    v.isInstanceOf t = true := by
  cases v with
  | null => cases hv
  | record typeName fields =>
    unfold admits at h
    unfold Value.isInstanceOf
    split at h
    next ht => rw [ht]
    next ht =>
      rw [ht]
      exact (Bool.and_eq_true _ _ ▸ (Bool.and_eq_true _ _ ▸ h).1).1
    next => cases h
  | collection items =>
    unfold admits at h
    unfold Value.isInstanceOf
    split at h
    next ht => rw [ht]
    next ht => rw [ht]
    next => cases h
  | _ => exact h

/-- The values of a record type that are not null. -/
theorem admits_record_iff {name : String} (ht : t.nonNullable = .record name) (hv : v.isNull = false) :
    s.admits t v = true ↔
      ∃ r fields, v = .record name fields ∧ s.record? name = some r ∧
        (Entries.names fields).Perm (Entries.names r.members) ∧
        ∀ f ∈ fields, ∃ m, s.member? name f.1 = some m ∧ s.admits m.type f.2 = true := by
  constructor
  · intro h
    have hform := Value.hasForm_of_isInstanceOf (isInstanceOf_of_admits h hv)
    rw [ht] at hform
    obtain ⟨fields, rfl⟩ := hform
    simp only [admits, ht, Bool.and_eq_true, admitsFields_eq_all, List.all_eq_true, Option.any_eq_true] at h
    obtain ⟨⟨-, hnames⟩, hfields⟩ := h
    unfold hasMembers at hnames
    split at hnames
    next r hr => exact ⟨r, fields, rfl, hr, List.isPerm_iff.mp hnames, hfields⟩
    next => cases hnames
  · rintro ⟨r, fields, rfl, hr, hnames, hfields⟩
    simp only [admits, ht, Bool.and_eq_true, beq_iff_eq, admitsFields_eq_all, List.all_eq_true,
      Option.any_eq_true, hasMembers, hr, List.isPerm_iff]
    exact ⟨⟨trivial, hnames⟩, hfields⟩

/-- The values of a collection type that are not null. -/
theorem admits_collection_iff {element : HostType} (ht : t.nonNullable = .collection element)
    (hv : v.isNull = false) :
    s.admits t v = true ↔ ∃ items, v = .collection items ∧ ∀ w ∈ items, s.admits element w = true := by
  constructor
  · intro h
    have hform := Value.hasForm_of_isInstanceOf (isInstanceOf_of_admits h hv)
    rw [ht] at hform
    obtain ⟨items, rfl⟩ := hform
    simp only [admits, ht, admitsItems_eq_all, List.all_eq_true] at h
    exact ⟨items, rfl, h⟩
  · rintro ⟨items, rfl, h⟩
    simpa only [admits, ht, admitsItems_eq_all, List.all_eq_true] using h

end Schema

/-! ## Conversions -/

namespace Value

theorem isInstanceOf_congr (v : Value) {t u : HostType} (h : t.nonNullable = u.nonNullable) :
    v.isInstanceOf t = v.isInstanceOf u := by
  simp only [isInstanceOf, h]

end Value

namespace Schema

variable {s : Schema} {t target : HostType}

/-- A value other than a collection, where it is not null. -/
theorem convert_of_isInstanceOf {v : Value} (h : v.isInstanceOf target = true)
    (hitems : ∀ items, v = .collection items → ∀ element, target.nonNullable ≠ .collection element) :
    v.convert target = .ok v := by
  have hinstance := Value.isInstanceOf_nonNullable h
  cases v with
  | null => cases h
  | collection items =>
    unfold Value.convert
    split
    next element ht => exact absurd ht (hitems items rfl element)
    next => rw [if_pos hinstance]
  | _ => exact (Value.convert_of_not_collection rfl (by simp)).trans (if_pos hinstance)

mutual

/-- A value converts to a type that admits it as it is. -/
theorem convert_self {t : HostType} {v : Value} (h : s.admits t v = true) : v.convert t = .ok v := by
  cases v with
  | null =>
    unfold Value.convert
    exact if_pos h
  | collection items =>
    cases ht : t.nonNullable with
    | collection element =>
      simp only [admits, ht] at h
      simp only [Value.convert, ht, convertItems_self h]
      rfl
    | _ => exact convert_of_isInstanceOf (isInstanceOf_of_admits h rfl) (by simp [ht])
  | _ => exact convert_of_isInstanceOf (isInstanceOf_of_admits h rfl) (by simp)
termination_by structural v

/-- Items convert to a type that admits them as they are. -/
theorem convertItems_self {t : HostType} {items : List Value} (h : s.admitsItems t items = true) :
    Value.convertItems items t = .ok items := by
  cases items with
  | nil => rfl
  | cons v rest =>
    rw [admitsItems, Bool.and_eq_true] at h
    simp only [Value.convertItems, convert_self h.1, convertItems_self h.2]
    rfl
termination_by structural items

end

/-- **A conversion that changes nullability only** keeps a value that the type has. -/
theorem convert_of_admits {v : Value} (h : s.admits t v = true) (ht : t.nonNullable = target.nonNullable)
    (hnull : v.isNull = true → target.isNullable = true) :
    v.convert target = .ok v ∧ s.admits target v = true := by
  have htarget : s.admits target v = true := by
    cases hv : v.isNull with
    | true =>
      obtain rfl := Value.eq_null hv
      exact hnull rfl
    | false => rwa [← admits_congr ht hv]
  exact ⟨convert_self htarget, htarget⟩

end Schema

/-! ## Numbers -/

namespace HostType

/-- The numeric types: the integers of each width and three kinds of floats. -/
theorem isNumeric_iff {t : HostType} :
    t.isNumeric = true ↔ (∃ w, t.nonNullable = .int w) ∨ t.nonNullable = .single ∨
      t.nonNullable = .double ∨ t.nonNullable = .decimal := by
  unfold isNumeric
  cases t.nonNullable <;> simp

theorem isIntegral_iff {t : HostType} : t.isIntegral = true ↔ ∃ w, t.nonNullable = .int w := by
  unfold isIntegral
  cases t.nonNullable <;> simp

end HostType

namespace Value

theorem ofIntegral_inRange (n : Int) {t : HostType} (ht : t.isIntegral = true) :
    (ofIntegral n t).InRange fun v => v.isInstanceOf t = true := by
  obtain ⟨w, hw⟩ := HostType.isIntegral_iff.mp ht
  simp only [ofIntegral, isInstanceOf, hw]
  refine .orFail rfl fun v hv => ?_
  obtain ⟨m, hm, rfl⟩ := Option.map_eq_some_iff.mp hv
  unfold SizedInt.ofInt? at hm
  split_ifs at hm
  cases hm
  simp [hostType?]

theorem ofFloat_inRange (x : Float) {t : HostType} (ht : t.isNumeric = true) :
    (ofFloat x t).InRange fun v => v.isInstanceOf t = true := by
  have number {α : Type} {o : Option α} {f : α → Value} (hf : ∀ a, (f a).isInstanceOf t = true) :
      (orFail .notANumber (o.map f)).InRange fun v => v.isInstanceOf t = true := by
    refine .orFail rfl fun v hv => ?_
    obtain ⟨a, _, rfl⟩ := Option.map_eq_some_iff.mp hv
    exact hf a
  rcases HostType.isNumeric_iff.mp ht with ⟨w, h⟩ | h | h | h
  · simp only [ofFloat, h]
    rw [if_pos (by rfl)]
    refine (ofIntegral_inRange _ (t := .int w) rfl).mono fun v hv => ?_
    rwa [v.isInstanceOf_congr (u := .int w) h]
  all_goals
    simp only [ofFloat, h]
    exact number fun a => by simp [isInstanceOf, h, hostType?]

theorem ofInt_inRange (n : Int) {t : HostType} (ht : t.isNumeric = true) :
    (ofInt n t).InRange fun v => v.isInstanceOf t = true := by
  rcases HostType.isNumeric_iff.mp ht with ⟨w, h⟩ | h | h | h
  · simp only [ofInt, h]
    exact ofIntegral_inRange n (HostType.isIntegral_iff.mpr ⟨w, h⟩)
  all_goals
    simp only [ofInt, h]
    exact ofFloat_inRange _ ht

/-- Whether the value is a number. -/
def isNumber : Value → Bool
  | .int _ | .single _ | .double _ | .decimal _ => true
  | _ => false

variable {v : Value} {t target : HostType}

theorem isNumber_of_isInstanceOf (h : v.isInstanceOf t = true) (ht : t.isNumeric = true) :
    v.isNumber = true := by
  have hform := hasForm_of_isInstanceOf h
  rcases HostType.isNumeric_iff.mp ht with ⟨w, hu⟩ | hu | hu | hu
  · rw [hu] at hform
    obtain ⟨n, hn, rfl⟩ := hform
    rfl
  all_goals
    rw [hu] at hform
    obtain ⟨x, rfl⟩ := hform
    rfl

end Value

namespace Schema

variable {s : Schema} {t target : HostType} {v : Value}

theorem admits_of_isPlain (hv : v.isPlain = true) : s.admits t v = v.isInstanceOf t := by
  cases v <;> first | rfl | cases hv

end Schema

end TypedQuery
