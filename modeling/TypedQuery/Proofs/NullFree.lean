import TypedQuery.Proofs.OperatorTypes

/-!
# Values without null

Values that have no null in them, at any depth, and are of a type. A conversion of such a value does not
ask whether the target has null, and a conversion to the type itself changes nothing. Numbers compare alike
before and after they are widened, but for integers of 64 bits without sign, which are widened to floats.

* `Value.isNullFree`: no null at any depth.
* `Schema.Settles`: a value without null of a type.
* `Schema.Settles.convert_self`, **`Schema.Settles.convert`**: conversions.
* **`Schema.Settles.exists_widened`**: the order of numbers before and after they are widened.
-/

namespace TypedQuery

/-! ## No null at any depth -/

namespace Value

mutual

/-- Whether neither the value nor anything in it is null. -/
def isNullFree : Value → Bool
  | .null => false
  | .record _ fields | .dictionary fields | .container fields => entriesNullFree fields
  | .collection items => itemsNullFree items
  | .grouping key items => isNullFree key && itemsNullFree items
  | .wrapper ⟨_, g, c, s, i, m⟩ =>
    memberNullFree g && memberNullFree c && memberNullFree s && memberNullFree i && memberNullFree m
  | _ => true
termination_by structural v => v

/-- Whether nothing in the items is null. -/
def itemsNullFree : List Value → Bool
  | [] => true
  | v :: rest => isNullFree v && itemsNullFree rest
termination_by structural items => items

/-- Whether nothing in the entries is null. -/
def entriesNullFree : List (String × Value) → Bool
  | [] => true
  | (_, v) :: rest => isNullFree v && entriesNullFree rest
termination_by structural entries => entries

/-- Whether nothing in a member that may be missing is null. -/
def memberNullFree : Option Value → Bool
  | none => true
  | some v => isNullFree v
termination_by structural member => member

end

variable {v w : Value} {t u : HostType}

theorem isNull_of_isNullFree (h : v.isNullFree = true) : v.isNull = false := by
  cases v <;> first | rfl | cases h

theorem isNullFree_of_isAtom (h : v.isAtom = true) : v.isNullFree = true := by
  cases v <;> first | rfl | cases h

theorem isAtom_of_isInstanceOf (h : v.isInstanceOf t = true)
    (ht : t.nonNullable.isValueType = true ∨ t.nonNullable = .string) : v.isAtom = true := by
  unfold isInstanceOf at h
  generalize t.nonNullable = u at h ht
  cases u <;> first | (simp [HostType.isValueType] at ht; done) | skip
  all_goals cases v <;> first | rfl | simp [hostType?] at h

theorem hostType?_of_isInstanceOf (h : v.isInstanceOf t = true) (ht : t.isNumeric = true) :
    v.hostType? = some t.nonNullable := by
  unfold isInstanceOf at h
  unfold HostType.isNumeric at ht
  generalize t.nonNullable = u at h ht
  cases u <;> first | (cases ht; done) | skip
  all_goals cases v <;> first | (simp [hostType?] at h; done) | simpa using h

theorem isNullFree_item {items : List Value} (h : (Value.collection items).isNullFree = true) :
    ∀ v ∈ items, v.isNullFree = true := by
  change itemsNullFree items = true at h
  induction items with
  | nil => simp
  | cons v rest ih =>
    rw [itemsNullFree, Bool.and_eq_true] at h
    exact List.forall_mem_cons.mpr ⟨h.1, ih h.2⟩

theorem isNullFree_field {typeName : String} {fields : List (String × Value)}
    (h : (Value.record typeName fields).isNullFree = true) : ∀ f ∈ fields, f.2.isNullFree = true := by
  change entriesNullFree fields = true at h
  induction fields with
  | nil => simp
  | cons f rest ih =>
    rw [entriesNullFree, Bool.and_eq_true] at h
    exact List.forall_mem_cons.mpr ⟨h.1, ih h.2⟩

/-! ## Conversions -/

theorem convertScalar_congr (v : Value) (ht : t.nonNullable = u.nonNullable) :
    (v.convertScalar t).toOption = (v.convertScalar u).toOption := by
  unfold convertScalar
  rw [ht]
  dsimp only
  split <;> first | rfl | (split_ifs <;> rfl)

/-- A conversion of a value other than null does not depend on whether the target has null. -/
theorem convert_congr (hv : v.isNull = false) (ht : t.nonNullable = u.nonNullable)
    (h : v.convert t = .ok w) : v.convert u = .ok w := by
  rw [← Outcome.toOption_eq_some] at h ⊢
  rw [← h]
  cases v with
  | null => cases hv
  | collection items =>
    unfold convert
    rw [ht]
    split
    · rfl
    · split_ifs <;> rfl
  | _ =>
    rw [convert_of_not_collection rfl (by simp), convert_of_not_collection rfl (by simp), ht]
    split_ifs
    · rfl
    · exact (convertScalar_congr _ ht).symm

theorem isAtom_of_convertScalar (h : v.convertScalar t = .ok w) : w.isAtom = true := by
  have hatom := convertScalar_nullSafe v t
  rw [h] at hatom
  exact hatom.1

theorem isNull_convert (hv : v.isNull = false) (h : v.convert t = .ok w) : w.isNull = false := by
  cases v with
  | null => cases hv
  | collection items =>
    unfold convert at h
    split at h
    next element _ =>
      cases hitems : convertItems items element <;> rw [hitems] at h <;> cases h
      rfl
    next =>
      split_ifs at h <;> cases h
      rfl
  | _ =>
    rw [convert_of_not_collection rfl (by simp)] at h
    split_ifs at h
    · cases h
      rfl
    · exact isNull_of_isPlain (isPlain_of_isAtom (isAtom_of_convertScalar h))

theorem ofFloat_isInstanceOf {x : Float} (ht : t.isNumeric = true) (h : ofFloat x t = .ok w) :
    w.isInstanceOf t = true := by
  have hrange := ofFloat_inRange x ht
  rwa [h] at hrange

theorem ofInt_isInstanceOf {n : Int} (h : ofInt n t = .ok w) : w.isInstanceOf t = true := by
  by_cases ht : t.isNumeric = true
  · have hrange := ofInt_inRange n ht
    rwa [h] at hrange
  · unfold ofInt ofIntegral at h
    rw [HostType.isNumeric_iff] at ht
    unfold isInstanceOf
    cases hu : t.nonNullable <;> rw [hu] at h ht <;> first | cases h | (simp at ht; done) | skip
    case enum =>
      dsimp only at h
      split_ifs at h <;> cases h
      simp
    case object =>
      dsimp only at h
      cases hn : SizedInt.ofInt? .int64 n <;> rw [hn] at h <;> cases h
      rfl

/-- What a value of another kind is converted to is of the type. -/
theorem convertScalar_isInstanceOf (h : v.convertScalar t = .ok w) :
    w.isInstanceOf t.nonNullable = true := by
  have calendar {α : Type} {o : Option α} {f : α → Value} {u : HostType} (hu : t.nonNullable = u)
      (hf : ∀ a, (f a).isInstanceOf u = true) (h : orAbort (o.map f) = .ok w) :
      w.isInstanceOf t.nonNullable = true := by
    cases o <;> cases h
    rw [hu]
    exact hf _
  have given {u : HostType} {w' : Value} (hu : t.nonNullable = u) (hw : w'.isInstanceOf u = true)
      (h : (.ok w' : Outcome Value) = .ok w) : w.isInstanceOf t.nonNullable = true := by
    cases h
    rwa [hu]
  unfold convertScalar at h
  dsimp only at h
  split at h
  all_goals first
    | (cases h; done)
    | exact given ‹_› rfl h
    | exact calendar ‹_› (fun _ => rfl) h
    | split_ifs at h with hkind
  all_goals first
    | (cases h; done)
    | exact ofInt_isInstanceOf h
    | exact ofFloat_isInstanceOf hkind h
    | exact given ‹_› (by simp [isInstanceOf, HostType.nonNullable]) h

/-- What is converted to a type with plain values only is plain. -/
theorem isPlain_of_convert (ht : t.nonNullable.isAtomic = true) (h : v.convert t = .ok w)
    (hv : v.isNull = false) : v.isPlain = true := by
  cases v <;> first | rfl | (cases hv; done) | skip
  case record =>
    rw [convert_of_not_collection rfl (by simp)] at h
    unfold isInstanceOf convertScalar at h
    generalize t.nonNullable = u at ht h
    cases u <;> first | (cases ht; done) | (simp [HostType.nonNullable, hostType?] at h; cases h)
  case collection =>
    unfold convert isInstanceOf at h
    generalize t.nonNullable = u at ht h
    cases u <;> first | (cases ht; done) | (simp [HostType.nonNullable, hostType?] at h; cases h)

end Value

/-! ## Values of a type -/

namespace Schema

/-- A value without null, of a type; a record or a collection is one that the schema admits. -/
structure Settles (s : Schema) (t : HostType) (v : Value) : Prop where
  nullFree : v.isNullFree = true
  typed : v.isInstanceOf t.nonNullable = true
  parts : v.isPlain = false → s.admits t v = true

namespace Settles

variable {s : Schema} {t u : HostType} {v w : Value}

theorem isNull (h : s.Settles t v) : v.isNull = false := Value.isNull_of_isNullFree h.nullFree

theorem of_admits (h : s.admits t v = true) (hv : v.isNullFree = true) : s.Settles t v where
  nullFree := hv
  typed := Value.isInstanceOf_nonNullable (isInstanceOf_of_admits h (Value.isNull_of_isNullFree hv))
  parts _ := h

theorem of_isAtom (hv : v.isAtom = true) (ht : v.isInstanceOf t.nonNullable = true) : s.Settles t v where
  nullFree := Value.isNullFree_of_isAtom hv
  typed := ht
  parts h := by
    rw [Value.isPlain_of_isAtom hv] at h
    cases h

theorem of_isValueType (hv : v.isInstanceOf t = true) (ht : t.nonNullable.isValueType = true) :
    s.Settles t v :=
  of_isAtom (Value.isAtom_of_isInstanceOf hv (.inl ht)) (Value.isInstanceOf_nonNullable hv)

theorem of_bool (ht : t.isBool = true) (b : Bool) : s.Settles t (.bool b) := by
  have htype : t.nonNullable = .bool := of_decide_eq_true ht
  refine of_isAtom rfl ?_
  rw [htype]
  rfl

theorem admits (h : s.Settles t v) (ht : t.nonNullable.isNullableValueType = false) :
    s.admits t v = true := by
  cases hplain : v.isPlain with
  | false => exact h.parts hplain
  | true =>
    rw [Schema.admits_of_isPlain hplain, Value.isInstanceOf_congr v (HostType.nonNullable_eq_self ht).symm]
    exact h.typed

theorem congr (h : s.Settles t v) (ht : t.nonNullable = u.nonNullable) : s.Settles u v where
  nullFree := h.nullFree
  typed := ht ▸ h.typed
  parts hplain := by
    rw [← admits_congr ht h.isNull]
    exact h.parts hplain

/-- A conversion to the type itself changes nothing. -/
theorem convert_self (h : s.Settles t v) (ht : t.nonNullable = u.nonNullable) : v.convert u = .ok v := by
  cases hplain : v.isPlain with
  | false =>
    refine (convert_of_admits (h.parts hplain) ht fun hnull => ?_).1
    rw [h.isNull] at hnull
    cases hnull
  | true =>
    have hitems (items : List Value) : v ≠ .collection items := by
      rintro rfl
      cases hplain
    rw [Value.convert_of_not_collection h.isNull hitems, if_pos (ht ▸ h.typed)]

/-- **A conversion gives a value of the target**, of a plain value or to a type with plain values only. -/
theorem convert (h : s.Settles t v) (hconvert : v.convert u = .ok w)
    (hplain : v.isPlain = true ∨ u.nonNullable.isAtomic = true) : s.Settles u w := by
  have hv : v.isPlain = true := hplain.elim id fun hatomic => Value.isPlain_of_convert hatomic hconvert h.isNull
  have hitems (items : List Value) : v ≠ .collection items := by
    rintro rfl
    cases hv
  rw [Value.convert_of_not_collection h.isNull hitems] at hconvert
  split_ifs at hconvert with hinstance
  · cases hconvert
    refine ⟨h.nullFree, hinstance, fun hnot => ?_⟩
    rw [hv] at hnot
    cases hnot
  · exact of_isAtom (Value.isAtom_of_convertScalar hconvert) (Value.convertScalar_isInstanceOf hconvert)

theorem isPlain (h : s.Settles t v) (ht : t.nonNullable.isAtomic = true) : v.isPlain = true := by
  cases hplain : v.isPlain with
  | true => rfl
  | false => exact absurd (Value.isPlain_of_convert ht (h.convert_self rfl) h.isNull) (by rw [hplain]; decide)

theorem exists_bool (h : s.Settles t v) (ht : t.isBool = true) : ∃ b, v = .bool b := by
  have htype : t.nonNullable = .bool := by simpa [HostType.isBool] using ht
  have hform := Value.hasForm_of_isInstanceOf h.typed
  rwa [htype] at hform

/-- The items of a collection. -/
theorem exists_items {element : HostType} (h : s.Settles (.collection element) v) :
    ∃ items, v = .collection items ∧ ∀ w ∈ items, s.Settles element w := by
  obtain ⟨items, rfl, hitems⟩ := (admits_collection_iff rfl h.isNull).mp (h.admits rfl)
  exact ⟨items, rfl, fun w hw => .of_admits (hitems w hw) (Value.isNullFree_item h.nullFree w hw)⟩

/-- A declared member of a record. -/
theorem member {name key : String} {m : Member} (h : s.Settles (.record name) v)
    (hm : s.member? name key = some m) (hw : v.member m.name = .ok w) : s.Settles m.type w := by
  obtain ⟨_, fields, rfl, -, -, hfields⟩ := (admits_record_iff rfl h.isNull).mp (h.admits rfl)
  have hname : m.name = key := by
    obtain ⟨_, _, hm⟩ := Option.bind_eq_some_iff.mp hm
    obtain ⟨_, _, hm⟩ := Option.bind_eq_some_iff.mp hm
    cases hm
    rfl
  have hfield : Entries.get? fields m.name = some w := by
    change orFail _ (Entries.get? fields m.name) = .ok w at hw
    cases hget : Entries.get? fields m.name <;> rw [hget] at hw <;> cases hw
    rfl
  have hmem := Entries.mem_of_get? hfield
  obtain ⟨m', hm', hadmits⟩ := hfields _ hmem
  rw [hname, hm] at hm'
  cases hm'
  exact .of_admits hadmits (Value.isNullFree_field h.nullFree _ hmem)

end Settles

end Schema

/-! ## Order after widening -/

/-- Two values that are not null are ordered as two others are. -/
structure Value.SameOrder (v w v' w' : Value) : Prop where
  left : v.isNull = false ∧ w.isNull = false
  right : v'.isNull = false ∧ w'.isNull = false
  compare : v.compare? w = v'.compare? w'
  equals : v.equals w = v'.equals w'

namespace Value.SameOrder

variable {a b v w v' w' : Value}

theorem refl (hv : v.isNull = false) (hw : w.isNull = false) : v.SameOrder w v w :=
  ⟨⟨hv, hw⟩, ⟨hv, hw⟩, rfl, rfl⟩

theorem symm (h : v.SameOrder w v' w') : v'.SameOrder w' v w :=
  ⟨h.right, h.left, h.compare.symm, h.equals.symm⟩

theorem trans (h : a.SameOrder b v w) (h' : v.SameOrder w v' w') : a.SameOrder b v' w' :=
  ⟨h.left, h'.right, h.compare.trans h'.compare, h.equals.trans h'.equals⟩

/-- A comparison gives the same boolean, lifted or not. -/
theorem compareValues {op : BinaryOp} {lifted : Bool} (h : v.SameOrder w v' w')
    (hop : op.isComparison = true) {u : Value} (hu : op.compareValues v w lifted = .ok u) :
    op.compareValues v' w' false = .ok u ∧ ∃ x, u = .bool x := by
  unfold BinaryOp.compareValues at hu ⊢
  rw [h.left.1, h.left.2, Bool.or_self, if_neg Bool.false_ne_true, h.compare, h.equals] at hu
  rw [h.right.1, h.right.2, Bool.or_self, if_neg Bool.false_ne_true]
  cases op <;> first | (cases hop; done) | skip
  case equal | notEqual =>
    cases hu
    exact ⟨rfl, _, rfl⟩
  all_goals
    dsimp only at hu ⊢
    cases hcompare : v'.compare? w' <;> rw [hcompare] at hu <;> cases hu
    exact ⟨rfl, _, rfl⟩

end Value.SameOrder

namespace Schema.Settles

variable {s : Schema} {t u : HostType} {v w : Value}

/-- **Numbers of one type are ordered alike before and after they are widened**, but for those of the type
that is widened to floats. -/
theorem exists_widened (hv : s.Settles t v) (hw : s.Settles t w) (ht : t.isNumeric = true)
    (hwide : t.nonNullable ≠ .int .uint64)
    (hu : u.nonNullable = Bind.wider t.nonNullable t.nonNullable) :
    ∃ v' w', v.convert u = .ok v' ∧ w.convert u = .ok w' ∧ v.SameOrder w v' w' := by
  have hinstance := hv.typed
  have hinstance' := hw.typed
  rcases HostType.isNumeric_iff.mp ht with ⟨width, hwidth⟩ | hfloat | hfloat | hfloat
  · have hint {x : Value} (hx : x.isInstanceOf (.int width) = true) : ∃ n : SizedInt, x = .int n ∧ n.width = width := by
      unfold Value.isInstanceOf at hx
      cases x <;> first | (simp [HostType.nonNullable, Value.hostType?] at hx; done) | skip
      next n => exact ⟨n, rfl, by simpa [HostType.nonNullable, Value.hostType?] using hx⟩
    rw [hwidth] at hinstance hinstance' hu hwide
    obtain ⟨a, rfl, ha⟩ := hint hinstance
    obtain ⟨b, rfl, hb⟩ := hint hinstance'
    rw [Bind.wider_eq, Nat.max_self] at hu
    obtain ⟨k, hk⟩ : ∃ k, Bind.ofRank (Bind.numericRank (.int width)) = .int k := by
      cases width <;> first | exact ⟨_, rfl⟩ | exact absurd rfl hwide
    have convert (n : SizedInt) (hn : n.width = width) :
        ∃ n' : SizedInt, (Value.int n).convert u = .ok (.int n') ∧ n'.val = n.val := by
      have hfits : k.Holds n.val := Bind.holds_ofRank (hn ▸ n.fits) (Nat.le_refl _) hk
      exact ⟨⟨k, n.val, hfits⟩, Value.convert_int (hu.trans hk) hfits, rfl⟩
    obtain ⟨a', ha', haval⟩ := convert a ha
    obtain ⟨b', hb', hbval⟩ := convert b hb
    refine ⟨_, _, ha', hb', ⟨rfl, rfl⟩, ⟨rfl, rfl⟩, ?_, ?_⟩
    all_goals simp only [Value.equals, Value.compare?, Value.compareNumbers?, Value.asInt?, haval, hbval]
  all_goals
    have hself : t.nonNullable = u.nonNullable := by
      rw [hu, hfloat]
      rfl
    exact ⟨v, w, hv.convert_self hself, hw.convert_self hself, .refl hv.isNull hw.isNull⟩

end Schema.Settles

end TypedQuery
