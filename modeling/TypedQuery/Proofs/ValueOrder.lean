import TypedQuery.Value.Order

/-!
# The order of values

Numbers of all kinds are compared with each other, and so are the values of every other kind that
has an order. Turned round, a comparison gives the order turned round. Among values that are no
floats the order is transitive; a large integer may be equal to a float that is equal to another
integer.

* `Value.Compares`: two values in an order, with a clause for each kind.
* **`Value.compare?_swap`**: a comparison turned round.
* **`Value.Compares.trans`**: transitivity.
* `Value.Precedes`: the order as the least and the greatest value of a list follow it.
-/

namespace TypedQuery

/-! ## Identifiers, days and times -/

theorem transCmp_comap {α β : Type} (f : α → β) (cmp : β → β → Ordering) [Std.TransCmp cmp] :
    Std.TransCmp fun a b => cmp (f a) (f b) where
  eq_swap := Std.OrientedCmp.eq_swap
  isLE_trans := Std.TransCmp.isLE_trans

instance : Std.TransCmp Guid.compare := transCmp_comap (fun g : Guid => g.bits.toNat) compare

instance : Std.TransCmp Day.compare :=
  inferInstanceAs (Std.TransCmp
    (compareLex (compareOn Day.year) (compareLex (compareOn Day.month) (compareOn Day.day))))

instance : Std.TransCmp Time.compare :=
  inferInstanceAs (Std.TransCmp (compareLex (compareOn Time.second) (compareOn Time.nanos)))

instance : Std.TransCmp Date.compare := transCmp_comap Date.day Day.compare

instance : Std.TransCmp DateTime.compare :=
  have := transCmp_comap DateTime.date Date.compare
  have := transCmp_comap DateTime.time Time.compare
  inferInstanceAs (Std.TransCmp (compareLex (fun a b => Date.compare (DateTime.date a) b.date)
    fun a b => Time.compare (DateTime.time a) b.time))

instance : Std.TransCmp OffsetDateTime.compare := transCmp_comap OffsetDateTime.utc DateTime.compare

namespace Number

theorem compareFloat?_swap (x y : Float) : (compareFloat? x y).map Ordering.swap = compareFloat? y x := by
  unfold compareFloat?
  rw [Bool.or_comm]
  split
  · rfl
  · exact congrArg some Std.OrientedCmp.eq_swap.symm

end Number

namespace Value

/-- Whether the value is a number with a fraction. -/
def isFloat : Value → Bool
  | .single _ | .double _ | .decimal _ => true
  | _ => false

/-! ## Orders by kind -/

/-- The first value stands to the second in an order. -/
inductive Compares : Value → Value → Ordering → Prop where
  | bool (a b : Bool) : Compares (.bool a) (.bool b) (compare a b)
  | string (a b : String) : Compares (.string a) (.string b) (compare a b)
  | char (a b : Char) : Compares (.char a) (.char b) (compare a b)
  | bytes (a b : List UInt8) : Compares (.bytes a) (.bytes b) (compare a b)
  | guid (a b : Guid) : Compares (.guid a) (.guid b) (a.compare b)
  | date (a b : Date) : Compares (.date a) (.date b) (a.compare b)
  | dateTime (a b : DateTime) : Compares (.dateTime a) (.dateTime b) (a.compare b)
  | dateTimeOffset (a b : OffsetDateTime) :
      Compares (.dateTimeOffset a) (.dateTimeOffset b) (a.compare b)
  | timeOfDay (a b : Time) : Compares (.timeOfDay a) (.timeOfDay b) (a.compare b)
  | timeSpan (a b : Span) : Compares (.timeSpan a) (.timeSpan b) (compare a.nanos b.nanos)
  | integers {a b : Value} {m n : Int} (ha : a.asInt? = some m) (hb : b.asInt? = some n) :
      Compares a b (compare m n)
  | floats {a b : Value} {x y : Float} {o : Ordering} (hfloat : a.asInt? = none ∨ b.asInt? = none)
      (ha : a.asFloat? = some x) (hb : b.asFloat? = some y) (ho : Number.compareFloat? x y = some o) :
      Compares a b o

theorem compareNumbers?_eq_some {a b : Value} {o : Ordering} (h : compareNumbers? a b = some o) :
    Compares a b o := by
  unfold compareNumbers? at h
  split at h
  case h_1 m n ha hb =>
    cases h
    exact .integers ha hb
  case h_2 hnone =>
    split at h
    case h_1 x y ha hb =>
      refine .floats ?_ ha hb h
      cases hm : a.asInt? with
      | none => exact .inl rfl
      | some m =>
        cases hn : b.asInt? with
        | none => exact .inr rfl
        | some n => exact (hnone m n hm hn).elim
    case h_2 => cases h

theorem compare?_eq_some {a b : Value} {o : Ordering} (h : a.compare? b = some o) :
    Compares a b o := by
  unfold compare? at h
  split at h
  case h_11 => exact compareNumbers?_eq_some h
  all_goals
    cases h
    constructor

theorem Compares.eq_some {a b : Value} {o : Ordering} (h : Compares a b o) : a.compare? b = some o := by
  cases h with
  | integers ha hb =>
    unfold asInt? at ha hb
    split at ha <;> cases ha <;> split at hb <;> cases hb <;> rfl
  | floats hfloat ha hb ho =>
    have hnumbers : a.compare? b = compareNumbers? a b := by
      cases a <;> first | (cases ha; done) | rfl
    rw [hnumbers]
    unfold compareNumbers?
    rw [ha, hb]
    split
    case h_1 hm hn => rcases hfloat with h | h <;> simp_all
    case h_2 => exact ho
  | _ => rfl

theorem compare?_eq_some_iff {a b : Value} {o : Ordering} : a.compare? b = some o ↔ Compares a b o :=
  ⟨compare?_eq_some, Compares.eq_some⟩

theorem Compares.swap {a b : Value} {o : Ordering} (h : Compares a b o) : Compares b a o.swap := by
  cases h with
  | integers ha hb =>
    rw [← Std.OrientedCmp.eq_swap]
    exact .integers hb ha
  | floats hfloat ha hb ho =>
    refine .floats hfloat.symm hb ha ?_
    rw [← Number.compareFloat?_swap, ho]
    rfl
  | _ =>
    rw [← Std.OrientedCmp.eq_swap]
    constructor

/-- **A comparison turned round.** -/
theorem compare?_swap (a b : Value) : (a.compare? b).map Ordering.swap = b.compare? a := by
  ext o
  rw [Option.map_eq_some_iff, compare?_eq_some_iff]
  constructor
  · rintro ⟨o', ho', rfl⟩
    exact (compare?_eq_some ho').swap
  · intro h
    exact ⟨o.swap, h.swap.eq_some, Ordering.swap_swap⟩

/-! ## Transitivity -/

theorem isFloat_of_asFloat? {v : Value} {x : Float} (hint : v.asInt? = none)
    (h : v.asFloat? = some x) : v.isFloat = true := by
  cases v <;> first | rfl | (cases hint; done) | cases h

/-- **The order is transitive** among values that are no floats. -/
theorem Compares.trans {a b c : Value} {o₁ o₂ : Ordering} (ha : a.isFloat = false)
    (hb : b.isFloat = false) (hc : c.isFloat = false) (hab : Compares a b o₁) (hbc : Compares b c o₂)
    (h₁ : o₁.isLE = true) (h₂ : o₂.isLE = true) : ∃ o, Compares a c o ∧ o.isLE = true := by
  have no_float {v : Value} {x : Float} (hv : v.isFloat = false) (hint : v.asInt? = none)
      (h : v.asFloat? = some x) : False := by simp [isFloat_of_asFloat? hint h] at hv
  cases hab with
  | integers hm hn =>
    cases hbc with
    | integers hn' hk =>
      cases hn.symm.trans hn'
      exact ⟨_, .integers hm hk, Std.TransCmp.isLE_trans h₁ h₂⟩
    | floats hfloat hx hy =>
      rcases hfloat with h | h
      · exact (no_float hb h hx).elim
      · exact (no_float hc h hy).elim
    | _ => cases hn
  | floats hfloat hx hy =>
    rcases hfloat with h | h
    · exact (no_float ha h hx).elim
    · exact (no_float hb h hy).elim
  | _ =>
    cases hbc with
    | integers hm => cases hm
    | floats _ hx => cases hx
    | _ => exact ⟨_, by constructor, Std.TransCmp.isLE_trans h₁ h₂⟩

/-! ## Preference -/

/-- A value that an extreme with the preference would not give up for the other. -/
def Precedes (better : Ordering) (a b : Value) : Prop :=
  a = b ∨ ∃ o, a.compare? b = some o ∧ o ≠ better.swap

theorem precedes_swap {better : Ordering} {a b : Value} (h : a.Precedes better b) :
    b.Precedes better.swap a := by
  obtain rfl | ⟨o, ho, hne⟩ := h
  · exact .inl rfl
  · refine .inr ⟨o.swap, ?_, fun h => hne (Ordering.swap_inj.mp h)⟩
    rw [← compare?_swap, ho]
    rfl

theorem precedes_trans {better : Ordering} {a b c : Value} (hbetter : better ≠ .eq)
    (ha : a.isFloat = false) (hb : b.isFloat = false) (hc : c.isFloat = false)
    (hab : a.Precedes better b) (hbc : b.Precedes better c) : a.Precedes better c := by
  -- A greatest value is a least one of the order turned round.
  have least {a b c : Value} (ha : a.isFloat = false) (hb : b.isFloat = false)
      (hc : c.isFloat = false) (hab : a.Precedes .lt b) (hbc : b.Precedes .lt c) :
      a.Precedes .lt c := by
    obtain rfl | ⟨o₁, h₁, hne₁⟩ := hab
    · exact hbc
    obtain rfl | ⟨o₂, h₂, hne₂⟩ := hbc
    · exact .inr ⟨o₁, h₁, hne₁⟩
    obtain ⟨o, ho, hle⟩ := (compare?_eq_some h₁).trans ha hb hc (compare?_eq_some h₂)
      (Ordering.isLE_iff_ne_gt.mpr hne₁) (Ordering.isLE_iff_ne_gt.mpr hne₂)
    exact .inr ⟨o, ho.eq_some, Ordering.isLE_iff_ne_gt.mp hle⟩
  cases better with
  | lt => exact least ha hb hc hab hbc
  | eq => exact (hbetter rfl).elim
  | gt => exact precedes_swap (least hc hb ha (precedes_swap hbc) (precedes_swap hab))

theorem precedes_antisymm {better : Ordering} {a b : Value} (hbetter : better ≠ .eq)
    (hab : a.Precedes better b) (hba : b.Precedes better a) : a = b ∨ a.compare? b = some .eq := by
  obtain rfl | ⟨o, ho, hne⟩ := hab
  · exact .inl rfl
  obtain rfl | ⟨o', ho', hne'⟩ := hba
  · exact .inl rfl
  rw [← compare?_swap, ho] at ho'
  cases ho'
  cases better <;> cases o <;> simp_all

end Value

end TypedQuery
