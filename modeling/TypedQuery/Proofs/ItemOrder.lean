import TypedQuery.Proofs.Aggregates
import TypedQuery.Proofs.Equality
import TypedQuery.Proofs.NullOperands
import TypedQuery.Proofs.ValueOrder
import Mathlib.Algebra.BigOperators.Group.List.Basic
import Mathlib.Algebra.Ring.Int.Defs
import Mathlib.Data.List.Induction
import Mathlib.Data.List.Perm.Subperm

/-!
# Aggregates of reordered items

Aggregates of values that are no floats do not depend on the order of the values, although each of
them is computed from one value to the next. Distinct items are one of each class of equal values, a
sum of integers meets the bounds of its type at the end only, and an extreme so far stands before
every value so far.

* `Represents`: one of each class of equal values.
* `Value.IsExtreme`: a least or a greatest value of a list.
* `Accumulator.run_sum`, `Accumulator.run_extreme`: sums of integers, and extremes.
* **`aggregates_of_perm`**: the aggregates of a list and of a permutation of it.
-/

namespace TypedQuery

/-! ## Equality across numeric kinds -/

namespace Value

variable {a b c : Value}

theorem asInt?_of_beq (h : beq a b = true) : a.asInt? = b.asInt? := by
  unfold beq at h
  split at h <;> first | rfl | cases h | simp_all [asInt?]

theorem isNull_of_beq (h : beq a b = true) : a.isNull = b.isNull := by
  unfold beq at h
  split at h <;> first | rfl | cases h

/-- Integers are equal by number. -/
theorem looselyEquals_of_asInt? {m n : Int} (ha : a.asInt? = some m) (hb : b.asInt? = some n) :
    a.looselyEquals b = true ↔ m = n := by
  have number {v : Value} {n : Int} (hv : v.asInt? = some n) :
      v.isNull = false ∧ v.asFloat?.isSome = true := by
    cases v <;> first | exact ⟨rfl, rfl⟩ | cases hv
  have hloose : a.looselyEquals b = (a.compare? b == some .eq) := by
    simp [looselyEquals, number ha, number hb]
  rw [hloose, (Compares.integers ha hb).eq_some, beq_iff_eq, Option.some_inj]
  exact Std.LawfulEqCmp.compare_eq_iff_eq

/-- Other values that are no floats are equal by content. -/
theorem looselyEquals_of_no_integer (ha : a.isFloat = false) (hb : b.isFloat = false)
    (hint : a.asInt? = none ∨ b.asInt? = none) : a.looselyEquals b = beq a b := by
  have hfloat {v : Value} (hv : v.isFloat = false) : v.asFloat?.isSome = v.asInt?.isSome := by
    cases v <;> first | rfl | cases hv
  have hnumbers : (a.asFloat?.isSome && b.asFloat?.isSome) = false := by
    rw [hfloat ha, hfloat hb]
    rcases hint with h | h <;> simp [h]
  unfold looselyEquals
  rw [hnumbers]
  cases hbeq : beq a b with
  | true =>
    rw [isNull_of_beq hbeq]
    cases b.isNull
    · exact hbeq
    · rfl
  | false =>
    cases hna : a.isNull <;> cases hnb : b.isNull
    · exact hbeq
    · rfl
    · rfl
    · rw [eq_null hna, eq_null hnb] at hbeq
      cases hbeq

theorem looselyEquals_iff (ha : a.isFloat = false) (hb : b.isFloat = false) :
    a.looselyEquals b = true ↔ a.asInt? = b.asInt? ∧ (a.asInt? = none → beq a b = true) := by
  cases hm : a.asInt? with
  | none =>
    rw [looselyEquals_of_no_integer ha hb (.inl hm)]
    exact ⟨fun h => ⟨hm.symm.trans (asInt?_of_beq h), fun _ => h⟩, fun h => h.2 rfl⟩
  | some m =>
    cases hn : b.asInt? with
    | none =>
      rw [looselyEquals_of_no_integer ha hb (.inr hn)]
      refine ⟨fun h => ?_, fun h => by cases h.1⟩
      rw [asInt?_of_beq h, hn] at hm
      cases hm
    | some n =>
      rw [looselyEquals_of_asInt? hm hn]
      simp

theorem looselyEquals_refl (ha : a.WellFormed) (hfloat : a.isFloat = false) :
    a.looselyEquals a = true :=
  (looselyEquals_iff hfloat hfloat).mpr ⟨rfl, fun _ => beq_refl ha⟩

theorem looselyEquals_symm (ha : a.WellFormed) (hb : b.WellFormed) (hfa : a.isFloat = false)
    (hfb : b.isFloat = false) (h : a.looselyEquals b = true) : b.looselyEquals a = true := by
  rw [looselyEquals_iff hfa hfb] at h
  rw [looselyEquals_iff hfb hfa]
  exact ⟨h.1.symm, fun hn => beq_symm ha hb (h.2 (h.1.trans hn))⟩

theorem looselyEquals_trans (ha : a.WellFormed) (hfa : a.isFloat = false) (hfb : b.isFloat = false)
    (hfc : c.isFloat = false) (hab : a.looselyEquals b = true) (hbc : b.looselyEquals c = true) :
    a.looselyEquals c = true := by
  rw [looselyEquals_iff hfa hfb] at hab
  rw [looselyEquals_iff hfb hfc] at hbc
  rw [looselyEquals_iff hfa hfc]
  exact ⟨hab.1.trans hbc.1, fun hn => beq_trans ha (hab.2 hn) (hbc.2 (hab.1.symm.trans hn))⟩

end Value

/-! ## Distinct items -/

/-- Items of a list, one for each class of equal ones. -/
structure Represents (kept items : List Value) : Prop where
  mem : ∀ v ∈ kept, v ∈ items
  apart : kept.Pairwise fun a b => a.looselyEquals b = false
  covers : ∀ v ∈ items, ∃ k ∈ kept, k.looselyEquals v = true

section Distinct

variable {items : List Value} (hwell : ∀ v ∈ items, v.WellFormed)
  (hfloat : ∀ v ∈ items, v.isFloat = false)
include hwell hfloat

theorem distinctItems_represents : Represents (distinctItems items) items := by
  induction items using List.reverseRecOn with
  | nil => exact ⟨by simp [distinctItems], .nil, by simp⟩
  | append_singleton items v ih =>
    simp only [List.forall_mem_append, List.forall_mem_singleton] at hwell hfloat
    obtain ⟨hmem, hapart, hcovers⟩ := ih hwell.1 hfloat.1
    have hstep : distinctItems (items ++ [v]) =
        if (distinctItems items).any (·.looselyEquals v) then distinctItems items
        else distinctItems items ++ [v] := List.foldl_concat ..
    rw [hstep]
    split
    case isTrue hany =>
      refine ⟨fun w hw => List.mem_append_left _ (hmem w hw), hapart, ?_⟩
      exact List.forall_mem_append.mpr ⟨hcovers, by simpa using hany⟩
    case isFalse hany =>
      refine ⟨?_, ?_, ?_⟩
      · refine List.forall_mem_append.mpr ⟨fun w hw => List.mem_append_left _ (hmem w hw), by simp⟩
      · refine List.pairwise_append.mpr ⟨hapart, List.pairwise_singleton _ _, ?_⟩
        simpa using hany
      · refine List.forall_mem_append.mpr ⟨fun w hw => ?_, ?_⟩
        · obtain ⟨k, hk, hkw⟩ := hcovers w hw
          exact ⟨k, List.mem_append_left _ hk, hkw⟩
        · simpa using .inr (Value.looselyEquals_refl hwell.2 hfloat.2)

/-- The representatives of one choice are at most as many as those of another one. -/
theorem Represents.length_le {ks ls : List Value} (hks : Represents ks items)
    (hls : Represents ls items) : ks.length ≤ ls.length := by
  choose! f hmem hequal using fun k hk => hls.covers k (hks.mem k hk)
  have hnodup : (ks.map f).Nodup := by
    refine List.pairwise_map.mpr (hks.apart.imp_of_mem fun {a b} ha hb hab heq => ?_)
    have hia := hks.mem a ha
    have hib := hks.mem b hb
    have hif := hls.mem _ (hmem a ha)
    have haf := Value.looselyEquals_symm (hwell _ hif) (hwell a hia) (hfloat _ hif) (hfloat a hia)
      (hequal a ha)
    have hfb : (f a).looselyEquals b = true := heq ▸ hequal b hb
    rw [Value.looselyEquals_trans (hwell a hia) (hfloat a hia) (hfloat _ hif) (hfloat b hib) haf
      hfb] at hab
    cases hab
  calc ks.length = (ks.map f).length := (List.length_map f).symm
    _ ≤ ls.length := (hnodup.subperm (List.forall_mem_map.mpr hmem)).length_le

end Distinct

theorem distinctItems_length_of_perm {values items : List Value} (hperm : values.Perm items)
    (hwell : ∀ v ∈ values, v.WellFormed) (hfloat : ∀ v ∈ values, v.isFloat = false) :
    (distinctItems values).length = (distinctItems items).length := by
  have hvalues := distinctItems_represents hwell hfloat
  have hitems : Represents (distinctItems items) values := by
    have h := distinctItems_represents (fun v hv => hwell v (hperm.mem_iff.mpr hv))
      fun v hv => hfloat v (hperm.mem_iff.mpr hv)
    exact ⟨fun v hv => hperm.mem_iff.mpr (h.mem v hv), h.apart,
      fun v hv => h.covers v (hperm.mem_iff.mp hv)⟩
  exact Nat.le_antisymm (hvalues.length_le hwell hfloat hitems)
    (hitems.length_le hwell hfloat hvalues)

/-! ## Sums -/

/-- The sum of the integers of a list. -/
def integerTotal (values : List Value) : Int := (values.filterMap Value.asInt?).sum

theorem integerTotal_concat (values : List Value) (v : Value) :
    integerTotal (values ++ [v]) = integerTotal values + v.asInt?.getD 0 := by
  unfold integerTotal
  rw [List.filterMap_append, List.sum_append]
  cases h : v.asInt? <;> simp [h]

namespace Accumulator

/-- What holds before any value and what every value keeps up holds of the state after a list. -/
theorem state_of_step (acc : Accumulator) (values : List Value)
    (I : List Value → Accumulator → Prop) (hstart : I [] acc)
    (hstep : ∀ seen v acc, seen ++ [v] <+: values → I seen acc →
      ∃ next, acc.update v = .ok next ∧ I (seen ++ [v]) next) :
    ∃ last, values.foldlM update acc = .ok last ∧ I values last := by
  induction values using List.reverseRecOn with
  | nil => exact ⟨acc, rfl, hstart⟩
  | append_singleton values v ih =>
    obtain ⟨last, hlast, hI⟩ := ih fun seen w acc hpre =>
      hstep seen w acc (hpre.trans (List.prefix_append values [v]))
    obtain ⟨next, hnext, hI⟩ := hstep values v last List.prefix_rfl hI
    refine ⟨next, ?_, hI⟩
    rw [List.foldlM_append, hlast]
    change (last.update v >>= pure) = _
    rw [hnext]
    rfl

/-- The state of a sum that has met the integers of a list. -/
def SumsTo (acc : Accumulator) (n : Int) (result : HostType) : Prop :=
  (acc = .sum .empty result ∧ n = 0) ∨ acc = .sum (.exact n) result

theorem SumsTo.update {acc : Accumulator} {m : Int} {result : HostType} (h : acc.SumsTo m result)
    {v : Value} (hv : v.isNull = true ∨ v.isIntegral = true) :
    ∃ next, acc.update v = .ok next ∧ next.SumsTo (m + v.asInt?.getD 0) result := by
  cases v with
  | null =>
    refine ⟨acc, ?_, by simpa [Value.asInt?] using h⟩
    rcases h with ⟨rfl, -⟩ | rfl <;> rfl
  | int n =>
    rcases h with ⟨rfl, rfl⟩ | rfl
    · exact ⟨_, rfl, .inr (by simp [Value.asInt?])⟩
    · exact ⟨_, rfl, .inr rfl⟩
  | _ => simp [Value.isNull, Value.isIntegral] at hv

theorem sum_state {values : List Value}
    (hvalues : ∀ v ∈ values, v.isNull = true ∨ v.isIntegral = true) (result : HostType) :
    ∃ acc, values.foldlM update (.start .sum result) = .ok acc ∧
      acc.SumsTo (integerTotal values) result := by
  refine state_of_step _ values (fun seen acc => acc.SumsTo (integerTotal seen) result)
    (.inl ⟨rfl, rfl⟩) ?_
  intro seen v acc hpre hacc
  rw [integerTotal_concat]
  exact hacc.update (hvalues v (hpre.subset (by simp)))

/-- **A sum of integers** is their total if the result type holds it, whatever the sums on the
way. -/
theorem run_sum {values : List Value}
    (hvalues : ∀ v ∈ values, v.isNull = true ∨ v.isIntegral = true) {result : HostType}
    {w : IntWidth} (hresult : result.nonNullable = .int w) :
    (start .sum result).run values =
      orFail (.overflow (integerTotal values) result)
        ((SizedInt.ofInt? w (integerTotal values)).map .int) := by
  have hfinish {n : Int} : Value.ofInt n result =
      orFail (.overflow n result) ((SizedInt.ofInt? w n).map .int) := by
    simp [Value.ofInt, Value.ofIntegral, hresult]
  obtain ⟨acc, hacc, hsum⟩ := sum_state hvalues result
  unfold run
  rw [hacc]
  rcases hsum with ⟨rfl, hzero⟩ | rfl
  · rw [hzero]
    exact hfinish
  · exact hfinish

/-! ## Extremes -/

end Accumulator

/-- Any two values at different places of a list that are not null have an order. -/
def Comparable (values : List Value) : Prop :=
  (values.filter (!·.isNull)).Pairwise fun a b => (a.compare? b).isSome = true

instance (values : List Value) : Decidable (Comparable values) :=
  inferInstanceAs (Decidable (List.Pairwise _ _))

/-- A value of the list that no other one of it is preferred to. -/
structure Value.IsExtreme (better : Ordering) (values : List Value) (v : Value) : Prop where
  mem : v ∈ values
  notNull : v.isNull = false
  precedes : ∀ w ∈ values, w.isNull = false → v.Precedes better w

namespace Accumulator

/-- A value out of a list, or none if there is none. -/
structure Selects (values : List Value) (current : Option Value) : Prop where
  nulls : current = none → ∀ v ∈ values, v.isNull = true
  mem : ∀ c, current = some c → c ∈ values ∧ c.isNull = false

/-- An extreme stays with one more value if it stands before the value, and gives way to it if it
stands behind. -/
theorem Selects.update {better : Ordering} (hbetter : better ≠ .eq) {values : List Value}
    {v : Value} {current : Option Value} (h : Selects values current) (hcomparable : Comparable (values ++ [v]))
    (result : HostType) :
    ∃ next, (extreme better current result).update v = .ok (.extreme better next result) ∧
      Selects (values ++ [v]) next ∧
      (next = current ∧ (∀ c, current = some c → v.isNull = false → c.Precedes better v) ∨
        next = some v ∧ ∀ c, current = some c → v.Precedes better c) := by
  have hkeep (c : Value) (hc : current = some c) : c ∈ values ++ [v] ∧ c.isNull = false :=
    ⟨List.mem_append_left _ (h.mem c hc).1, (h.mem c hc).2⟩
  cases hnull : v.isNull with
  | true =>
    refine ⟨current, by simp [Accumulator.update, hnull], ⟨fun hc => ?_, hkeep⟩,
      .inl ⟨rfl, by simp⟩⟩
    exact List.forall_mem_append.mpr ⟨h.nulls hc, by simpa using hnull⟩
  | false =>
    have htake : Selects (values ++ [v]) (some v) := by
      refine ⟨by simp, ?_⟩
      rintro c ⟨⟩
      exact ⟨by simp, hnull⟩
    cases hcurrent : current with
    | none => exact ⟨some v, by simp [Accumulator.update, hnull], htake, .inr ⟨rfl, by simp⟩⟩
    | some c =>
      obtain ⟨hmem, hc⟩ := h.mem c hcurrent
      obtain ⟨o, ho⟩ : ∃ o, c.compare? v = some o := by
        unfold Comparable at hcomparable
        rw [List.filter_append, List.pairwise_append] at hcomparable
        exact Option.isSome_iff_exists.mp (hcomparable.2.2 c
          (List.mem_filter.mpr ⟨hmem, by simp [hc]⟩) v (by simp [hnull]))
      by_cases hreplace : o = better.swap
      · refine ⟨some v, by simp [Accumulator.update, hnull, ho, hreplace], htake, .inr ⟨rfl, ?_⟩⟩
        rintro c' ⟨⟩
        refine .inr ⟨better, ?_, by cases better <;> simp_all⟩
        rw [← Value.compare?_swap, ho, hreplace]
        simp
      · refine ⟨some c, by simp [Accumulator.update, hnull, ho, hreplace],
          ⟨by simp, hcurrent ▸ hkeep⟩, .inl ⟨rfl, ?_⟩⟩
        rintro c' ⟨⟩ -
        exact .inr ⟨o, ho, hreplace⟩

/-- What the extreme gives way to is the extreme of all values. -/
theorem Selects.isExtreme_update {better : Ordering} (hbetter : better ≠ .eq) {values : List Value} {v : Value}
    {current next : Option Value} (h : Selects values current) (hnext : Selects (values ++ [v]) next)
    (hcases : next = current ∧ (∀ c, current = some c → v.isNull = false → c.Precedes better v) ∨
      next = some v ∧ ∀ c, current = some c → v.Precedes better c)
    (hextreme : ∀ c, current = some c → c.IsExtreme better values)
    (hfloat : ∀ w ∈ values ++ [v], w.isFloat = false) :
    ∀ c, next = some c → c.IsExtreme better (values ++ [v]) := by
  intro c hc
  obtain ⟨hvalues, hv⟩ := List.forall_mem_append.mp hfloat
  obtain ⟨hmem, hnull⟩ := hnext.mem c hc
  refine ⟨hmem, hnull, List.forall_mem_append.mpr ⟨fun w hw hw' => ?_, ?_⟩⟩
  · rcases hcases with ⟨rfl, -⟩ | ⟨rfl, hbehind⟩
    · exact (hextreme c hc).precedes w hw hw'
    · cases hc
      cases hcurrent : current with
      | none =>
        rw [h.nulls hcurrent w hw] at hw'
        cases hw'
      | some d =>
        have hd := hextreme d hcurrent
        exact Value.precedes_trans hbetter (hv v (by simp)) (hvalues d hd.mem) (hvalues w hw)
          (hbehind d hcurrent) (hd.precedes w hw hw')
  · rcases hcases with ⟨rfl, hbefore⟩ | ⟨rfl, -⟩
    · simpa using hbefore c hc
    · cases hc
      simpa using fun _ => .inl rfl

theorem extreme_state {better : Ordering} (hbetter : better ≠ .eq) {values : List Value}
    (hcomparable : Comparable values) (result : HostType) :
    ∃ current, values.foldlM update (.extreme better none result) =
        .ok (.extreme better current result) ∧
      Selects values current ∧ ((∀ v ∈ values, v.isFloat = false) →
        ∀ c, current = some c → c.IsExtreme better values) := by
  obtain ⟨last, hlast, current, rfl, hselects, hextreme⟩ := state_of_step _ values
    (fun seen acc => ∃ current, acc = .extreme better current result ∧ Selects seen current ∧
      ((∀ v ∈ seen, v.isFloat = false) → ∀ c, current = some c → c.IsExtreme better seen))
    ⟨none, rfl, ⟨by simp, by simp⟩, by simp⟩ (by
      rintro seen v acc hpre ⟨current, rfl, hselects, hextreme⟩
      obtain ⟨next, hnext, hselects', hcases⟩ := hselects.update hbetter
        (hcomparable.sublist (hpre.sublist.filter _)) result
      refine ⟨_, hnext, next, rfl, hselects', fun hfloat => ?_⟩
      have hseen := hextreme (List.forall_mem_append.mp hfloat).1
      exact hselects.isExtreme_update hbetter hselects' hcases hseen hfloat)
  exact ⟨current, hlast, hselects, hextreme⟩

/-- The least or the greatest value, if there is one. -/
theorem run_extreme {better : Ordering} (hbetter : better ≠ .eq) {values : List Value}
    (hcomparable : Comparable values) (result : HostType) :
    (∃ v ∈ values, v.isNull = false ∧ (extreme better none result).run values = .ok v ∧
      ((∀ v ∈ values, v.isFloat = false) → v.IsExtreme better values)) ∨
    (∀ v ∈ values, v.isNull = true) ∧ (extreme better none result).run values =
      if result.isNullable then .ok .null else EvalError.fail .emptyExtreme := by
  obtain ⟨current, hcurrent, hselects, hextreme⟩ := extreme_state hbetter hcomparable result
  unfold run
  rw [hcurrent]
  cases current with
  | none => exact .inr ⟨hselects.nulls rfl, rfl⟩
  | some v =>
    obtain ⟨hmem, hnull⟩ := hselects.mem v rfl
    exact .inl ⟨v, hmem, hnull, rfl, fun hfloat => hextreme hfloat v rfl⟩

end Accumulator

/-! ## Permutations -/

section Permutation

variable {values items : List Value}

theorem Comparable.perm (hperm : values.Perm items) (h : Comparable values) : Comparable items := by
  refine ((hperm.filter _).pairwise_iff fun {a b} hab => ?_).mp h
  rw [← Value.compare?_swap, Option.isSome_map]
  exact hab

theorem integerTotal_of_perm (hperm : values.Perm items) :
    integerTotal values = integerTotal items :=
  (hperm.filterMap _).sum_eq

/-- The extremes of a list and of a permutation of it. -/
theorem Accumulator.run_extreme_of_perm {better : Ordering} (hbetter : better ≠ .eq)
    (hperm : values.Perm items) (hfloat : ∀ v ∈ values, v.isFloat = false)
    (hcomparable : Comparable values) (result : HostType) :
    (∃ v w, (extreme better none result).run values = .ok v ∧
        (extreme better none result).run items = .ok w ∧ v.IsExtreme better values ∧
        w.IsExtreme better items ∧ (v = w ∨ v.compare? w = some .eq)) ∨
      (∀ v ∈ values, v.isNull = true) ∧
        (extreme better none result).run values = (extreme better none result).run items := by
  have hvalues := run_extreme hbetter hcomparable result
  have hitems := run_extreme hbetter (hcomparable.perm hperm) result
  rcases hvalues with ⟨v, -, -, hrun, hv⟩ | ⟨hnull, hrun⟩
  · replace hv := hv hfloat
    rcases hitems with ⟨w, -, -, hrun', hw⟩ | ⟨hnull', -⟩
    · replace hw := hw fun v hv => hfloat v (hperm.mem_iff.mpr hv)
      refine .inl ⟨v, w, hrun, hrun', hv, hw, Value.precedes_antisymm hbetter ?_ ?_⟩
      · exact hv.precedes w (hperm.mem_iff.mpr hw.mem) hw.notNull
      · exact hw.precedes v (hperm.mem_iff.mp hv.mem) hv.notNull
    · have := hnull' v (hperm.mem_iff.mp hv.mem)
      rw [hv.notNull] at this
      cases this
  · rcases hitems with ⟨w, hw, hw', -⟩ | ⟨-, hrun'⟩
    · rw [hnull w (hperm.mem_iff.mpr hw)] at hw'
      cases hw'
    · exact .inr ⟨hnull, hrun.trans hrun'.symm⟩

/-- **Aggregates do not depend on the order of the items.** The number of the items and of the
distinct ones stay; a sum of integers is their total if the result type holds it; the least and the
greatest value are equal to each other, or there is none. -/
theorem aggregates_of_perm (hperm : values.Perm items) (hlength : values.length < 2 ^ 63)
    (hwell : ∀ v ∈ values, v.WellFormed) (hfloat : ∀ v ∈ values, v.isFloat = false)
    (result : HostType) :
    (∃ n, (Accumulator.start .count result).run values = .ok n ∧
      (Accumulator.start .count result).run items = .ok n ∧ n.asInt? = some (values.length : Int)) ∧
    (distinctItems values).length = (distinctItems items).length ∧
    ((∀ v ∈ values, v.isNull = true ∨ v.isIntegral = true) → ∀ w, result.nonNullable = .int w →
      ∀ list ∈ [values, items], (Accumulator.start .sum result).run list =
        orFail (.overflow (integerTotal values) result)
          ((SizedInt.ofInt? w (integerTotal values)).map .int)) ∧
    (Comparable values → ∀ a better, (a, better) ∈ [(Aggregate.min, Ordering.lt), (.max, .gt)] →
      (∃ v w, (Accumulator.start a result).run values = .ok v ∧
        (Accumulator.start a result).run items = .ok w ∧ v.IsExtreme better values ∧
        w.IsExtreme better items ∧ (v = w ∨ v.compare? w = some .eq)) ∨
      (∀ v ∈ values, v.isNull = true) ∧
        (Accumulator.start a result).run values = (Accumulator.start a result).run items) := by
  refine ⟨⟨.int64 values.length, Accumulator.run_count _ _, ?_, ?_⟩,
    distinctItems_length_of_perm hperm hwell hfloat, fun hintegers w hw => ?_,
    fun hcomparable a better hmem => ?_⟩
  · rw [Accumulator.run_count, hperm.length_eq]
  · have hholds : IntWidth.int64.Holds values.length := by
      constructor <;> simp only [IntWidth.least, IntWidth.greatest] <;> omega
    rw [Value.int64, SizedInt.int64_of_holds hholds]
    rfl
  · have hitems := Accumulator.run_sum (fun v hv => hintegers v (hperm.mem_iff.mpr hv)) hw
    rw [← integerTotal_of_perm hperm] at hitems
    simpa using ⟨Accumulator.run_sum hintegers hw, hitems⟩
  · have hcases : a = .min ∧ better = .lt ∨ a = .max ∧ better = .gt := by simpa using hmem
    rcases hcases with ⟨rfl, rfl⟩ | ⟨rfl, rfl⟩
    · exact Accumulator.run_extreme_of_perm (by decide) hperm hfloat hcomparable result
    · exact Accumulator.run_extreme_of_perm (by decide) hperm hfloat hcomparable result

/-- A sum that passes the bounds of its type on the way, and the least value, in two orders. -/
theorem aggregates_of_reversed_items :
    (∀ list ∈ [[Value.int32 2147483647, .int32 5, .null, .int32 (-5)],
        [.int32 (-5), .null, .int32 5, .int32 2147483647]],
      (Accumulator.start .sum (.int .int32)).run list = .ok (.int32 2147483647)) ∧
    ∃ v w, (Accumulator.start .min (.int .int32)).run
        [.int32 2147483647, .int32 5, .null, .int32 (-5)] = .ok v ∧
      (Accumulator.start .min (.int .int32)).run
        [.int32 (-5), .null, .int32 5, .int32 2147483647] = .ok w ∧
      (v = w ∨ v.compare? w = some .eq) := by
  have hwell : ∀ v ∈ [Value.int32 2147483647, .int32 5, .null, .int32 (-5)], v.WellFormed := by
    intro v hv
    simp only [List.mem_cons, List.not_mem_nil, or_false] at hv
    rcases hv with rfl | rfl | rfl | rfl <;> exact .scalar rfl
  obtain ⟨-, -, hsum, hextremes⟩ := aggregates_of_perm (List.reverse_perm _).symm
    (by decide) hwell (by decide) (.int .int32)
  refine ⟨hsum (by decide) .int32 rfl, ?_⟩
  rcases hextremes (by decide) .min .lt (by simp) with ⟨v, w, hv, hw, -, -, hequal⟩ | ⟨hnull, -⟩
  · exact ⟨v, w, hv, hw, hequal⟩
  · exact absurd (hnull (.int32 5) (by simp)) (by decide)

end Permutation

end TypedQuery
