import TypedQuery.Proofs.OperatorTypes

/-!
# Operators with a null operand

With null propagation, an order, arithmetic or a test of flags with a null operand is null or false. The
other operand is still brought to the common type first, which must not fail: numbers of enumerations have
to fit, and so do the keys of dates. Texts and byte sequences are ordered with null first, so that null
satisfies some of their orders, and a test of flags asks for its left operand only, where that is not the
record of the clause; both are left out.

* `Expr.IsInt`: a number without overflow.
* `Bind.TimeKey.key_typed`: the keys of dates and times, with the years that have one.
* **`null_operands_never_satisfy`**: operators with a null operand.
-/

namespace TypedQuery

/-! ## Numbers that fit -/

theorem SizedInt.int32_of_holds {n : Int} (h : IntWidth.int32.Holds n) : int32 n = ⟨.int32, n, h⟩ := by
  have hbounds : -2147483648 ≤ n ∧ n ≤ 2147483647 := h
  have hval : n.bmod 4294967296 = n := Int.bmod_eq_of_le (by omega) (by omega)
  simp only [int32, hval]

theorem SizedInt.int64_of_holds {n : Int} (h : IntWidth.int64.Holds n) : int64 n = ⟨.int64, n, h⟩ := by
  have hbounds : -9223372036854775808 ≤ n ∧ n ≤ 9223372036854775807 := h
  have hval : n.bmod 18446744073709551616 = n := Int.bmod_eq_of_le (by omega) (by omega)
  simp only [int64, hval]

namespace Expr

/-- An expression of an integer type, with a number. -/
def IsInt [External] (env : Env) (w : IntWidth) (n : Int) (e : Expr) : Prop :=
  e.type = .int w ∧ ∃ h : w.Holds n, e.eval env = .ok (.int ⟨w, n, h⟩)

variable {s : Schema} {E : Error → Prop} {env : Env} {w : IntWidth} {a b : Int} {e l r : Expr}

theorem IsInt.typedAt [External] (h : e.IsInt env w a) : e.TypedAt s E env false := by
  obtain ⟨htype, hfits, he⟩ := h
  rw [TypedAt, he, htype]
  refine ⟨?_, rfl⟩
  rw [Schema.admits_of_isPlain rfl]
  simp [Value.isInstanceOf, HostType.nonNullable, Value.hostType?]

/-- A number that a width holds has 128 bits. -/
theorem within128_of_holds (h : w.Holds a) : BinaryOp.within128 a = some a := by
  refine if_pos ?_
  unfold IntWidth.Holds at h
  cases w <;> simp only [IntWidth.least, IntWidth.greatest] at h <;>
    simp only [Number.int128Least, Number.int128Greatest] <;> omega

section Arithmetic

variable [External] {op : BinaryOp} {n : Int} (hlogical : op.isLogical = false)
    (hcomparison : op.isComparison = false)
  (hl : l.IsInt env w a) (hr : r.IsInt env w b) (hop : op.integers? a b = some n)
include hlogical hcomparison hl hr

theorem IsInt.type_arithmetic : (mkBinary op l r false).type = .int w := by
  show binaryType op l.type r.type false = .int w
  simp [binaryType, hlogical, hcomparison, hl.1, hr.1, HostType.isNullableValueType]

include hop

/-- Arithmetic gives the exact number, if the width holds it. -/
theorem IsInt.eval_arithmetic : (mkBinary op l r false).eval env = Value.ofInt n (.int w) := by
  have htype : binaryType op l.type r.type false = .int w := IsInt.type_arithmetic hlogical hcomparison hl hr
  obtain ⟨-, hla, hl⟩ := hl
  obtain ⟨-, hrb, hr⟩ := hr
  have htemporal : op.temporal? (.int ⟨w, a, hla⟩) (.int ⟨w, b, hrb⟩) = none := by cases op <;> rfl
  rw [eval_mkBinary hlogical, hl, hr, htype]
  simp only [Outcome.ok_bind, BinaryOp.apply, hlogical, hcomparison, Bool.false_eq_true, if_false,
    BinaryOp.arithmetic, htemporal, BinaryOp.numeric]
  simp [Value.isNull, HostType.nonNullable, HostType.isIntegral, hop]

theorem IsInt.arithmetic (hfits : w.Holds n) : (mkBinary op l r false).IsInt env w n := by
  refine ⟨IsInt.type_arithmetic hlogical hcomparison hl hr, hfits, ?_⟩
  rw [IsInt.eval_arithmetic hlogical hcomparison hl hr hop]
  simp [Value.ofInt, Value.ofIntegral, HostType.nonNullable, SizedInt.ofInt?, hfits, orFail]

/-- A number that the width does not hold is an overflow. -/
theorem IsInt.overflow (hfits : ¬w.Holds n) :
    (mkBinary op l r false).eval env = EvalError.fail (.overflow n (.int w)) := by
  rw [IsInt.eval_arithmetic hlogical hcomparison hl hr hop]
  simp [Value.ofInt, Value.ofIntegral, HostType.nonNullable, SizedInt.ofInt?, hfits, orFail]

end Arithmetic

theorem IsInt.add [External] (hl : l.IsInt env w a) (hr : r.IsInt env w b) (hfits : w.Holds (a + b)) :
    (mkBinary .add l r false).IsInt env w (a + b) :=
  IsInt.arithmetic rfl rfl hl hr (within128_of_holds hfits) hfits

theorem IsInt.multiply [External] (hl : l.IsInt env w a) (hr : r.IsInt env w b) (hfits : w.Holds (a * b)) :
    (mkBinary .multiply l r false).IsInt env w (a * b) :=
  IsInt.arithmetic rfl rfl hl hr (within128_of_holds hfits) hfits

end Expr

/-! ## Parts of dates and times -/

namespace Day

/-- The days of a year lie between its ends, but for a few days of the months around it. -/
theorem dayOfYear_bounds {n y : Int} (hn : 0 ≤ n ∧ n < 146097)
    (hy : y = (n - n / 1460 + n / 36524 - n / 146096) / 365) :
    -3 ≤ n - (365 * y + y / 4 - y / 100) ∧ n - (365 * y + y / 4 - y / 100) ≤ 368 := by
  omega

theorem ofNumber_bounds (n : Int) : (ofNumber n).month ≤ 12 ∧ (ofNumber n).day ≤ 31 := by
  have hera : 0 ≤ n - n.fdiv 146097 * 146097 ∧ n - n.fdiv 146097 * 146097 < 146097 := by
    rw [Int.fdiv_eq_ediv_of_nonneg _ (by decide)]
    omega
  have hday := dayOfYear_bounds hera rfl
  unfold ofNumber
  dsimp only
  generalize n - n.fdiv 146097 * 146097 = e at *
  generalize (e - e / 1460 + e / 36524 - e / 146096) / 365 = y at *
  generalize e - (365 * y + y / 4 - y / 100) = d at *
  constructor
  · split_ifs <;> omega
  · omega

theorem Exists.bounds {d : Day} (h : d.Exists) : d.month ≤ 12 ∧ d.day ≤ 31 := by
  have hmonth : monthLength d.year d.month ≤ 31 := by
    unfold monthLength
    split_ifs <;> decide
  exact ⟨h.2.1.2, Nat.le_trans h.2.2.2 hmonth⟩

end Day

namespace Value

variable {v : Value}

theorem dayPart?_bounds {d : Day} (h : v.dayPart? = some d) : d.month ≤ 12 ∧ d.day ≤ 31 := by
  cases v <;> cases h
  case date d => exact d.exists_day.bounds
  case dateTime t => exact t.date.exists_day.bounds
  case dateTimeOffset t => exact Day.ofNumber_bounds _

/-- The parts of a time, either way, are less than the whole; a leap second is one more. -/
theorem timeParts?_bounds {t : TimeParts} (h : v.timeParts? = some t) :
    t.hour.natAbs < 24 ∧ t.minute.natAbs < 60 ∧ t.second.natAbs < 60 ∧
      (t.nanos.tdiv 1000000).natAbs < 2000 := by
  have thousands {n : Int} (hn : n.natAbs < 2000000000) : (n.tdiv 1000000).natAbs < 2000 := by
    rw [Int.natAbs_tdiv]
    exact Nat.div_lt_of_lt_mul hn
  have rest (n : Int) {m : Int} (hm : m ≠ 0) : (n.tmod m).natAbs < m.natAbs := by
    rw [Int.natAbs_tmod]
    exact Nat.mod_lt _ (by omega)
  have time (t : Time) : t.parts.hour.natAbs < 24 ∧ t.parts.minute.natAbs < 60 ∧
      t.parts.second.natAbs < 60 ∧ (t.parts.nanos.tdiv 1000000).natAbs < 2000 := by
    have hbounded := t.bounded
    simp only [Time.parts, Time.hourPart, Time.minutePart, Time.secondPart]
    exact ⟨by omega, by omega, by omega, thousands (by omega)⟩
  cases v <;> cases h
  case timeOfDay t => exact time t
  case dateTime t => exact time t.time
  case dateTimeOffset t => exact time t.time
  case timeSpan s =>
    have hnanos := rest s.nanos (m := nanosPerSecond) (by decide)
    exact ⟨rest _ (by decide), rest _ (by decide), rest _ (by decide),
      thousands (Nat.lt_trans hnanos (by decide))⟩

end Value

namespace Bind.TimeKey

variable [External] {s : Schema} {E : Error → Prop} {env : Env} {e : Expr} {v : Value}

/-- Whether a date has a key: it must fit in 32 bits. -/
def Fits (k : TimeKey) (v : Value) : Prop :=
  k = .date → ∀ d, v.dayPart? = some d → -214748 ≤ d.year ∧ d.year ≤ 214748

theorem part_isInt {f : ScalarFunction} {n : Int} (he : e.eval env = .ok v)
    (hf : f.resultType [e] = .int .int32) (hpart : f.apply [v] = .ok (.int32 n))
    (hfits : IntWidth.int32.Holds n) : (Expr.mkScalar f [e]).IsInt env .int32 n := by
  refine ⟨hf, hfits, ?_⟩
  rw [eval_part f he, hpart, Value.int32, SizedInt.int32_of_holds hfits]

theorem isInt_const32 {n : Int} (h : IntWidth.int32.Holds n) :
    (Expr.mkConst (.int32 n)).IsInt env .int32 n := by
  refine ⟨rfl, h, ?_⟩
  rw [Expr.mkConst, Expr.eval, Value.int32, SizedInt.int32_of_holds h]

theorem isInt_const64 {n : Int} (h : IntWidth.int64.Holds n) :
    (Expr.mkConst (.int64 n)).IsInt env .int64 n := by
  refine ⟨rfl, h, ?_⟩
  rw [Expr.mkConst, Expr.eval, Value.int64, SizedInt.int64_of_holds h]

theorem isInt_widened {n : Int} (h : e.IsInt env .int32 n) (hfits : IntWidth.int64.Holds n) :
    (Expr.convert e (.int .int64)).IsInt env .int64 n := by
  obtain ⟨-, _, he⟩ := h
  refine ⟨rfl, hfits, ?_⟩
  rw [Expr.eval, he, Outcome.ok_bind]
  exact Value.convert_int rfl hfits

/-- The key of a date that has one. -/
theorem key_date_isInt {d : Day} (he : e.eval env = .ok v) (hd : v.dayPart? = some d)
    (hyear : -214748 ≤ d.year ∧ d.year ≤ 214748) :
    (key .date e).IsInt env .int32 (d.year * 10000 + d.month * 100 + d.day) := by
  obtain ⟨hmonth, hday⟩ := Value.dayPart?_bounds hd
  obtain ⟨hy, hm, hd⟩ := apply_dateParts hd
  have fits {n : Int} (h : -2147483648 ≤ n ∧ n ≤ 2147483647) : IntWidth.int32.Holds n := h
  have year := (part_isInt he rfl hy (fits (by omega))).multiply (isInt_const32 (n := 10000) (by decide))
    (fits (by omega))
  have month := (part_isInt he rfl hm (fits (by omega))).multiply (isInt_const32 (n := 100) (by decide))
    (fits (by omega))
  exact (year.add month (fits (by omega))).add (part_isInt he rfl hd (fits (by omega))) (fits (by omega))

/-- The key of a time: its ticks, but for those that are less than a millisecond. -/
theorem key_time_isInt {t : TimeParts} (he : e.eval env = .ok v) (ht : v.timeParts? = some t) :
    (key .time e).IsInt env .int64 (t.hour * 36000000000 + t.minute * 600000000 + t.second * 10000000 +
      t.nanos.tdiv 1000000 * 10000) := by
  obtain ⟨hhour, hminute, hsecond, hmillisecond⟩ := Value.timeParts?_bounds ht
  obtain ⟨hh, hm, hs, hms⟩ := apply_timeParts ht
  have fits {n : Int} (h : -9223372036854775808 ≤ n ∧ n ≤ 9223372036854775807) : IntWidth.int64.Holds n := h
  have ticks (scale : Int) {f : ScalarFunction} {n : Int} (hf : f.resultType [e] = .int .int32)
      (hpart : f.apply [v] = .ok (.int32 n)) (hn : n.natAbs < 2000) (hscale : IntWidth.int64.Holds scale)
      (hfits : IntWidth.int64.Holds (n * scale)) : (timePart e f scale).IsInt env .int64 (n * scale) := by
    have hsmall : IntWidth.int32.Holds n := by
      simp only [IntWidth.Holds, IntWidth.least, IntWidth.greatest]
      omega
    exact (isInt_widened (part_isInt he hf hpart hsmall) (fits (by omega))).multiply (isInt_const64 hscale) hfits
  have hours := ticks 36000000000 rfl hh (by omega) (by decide) (fits (by omega))
  have minutes := ticks 600000000 rfl hm (by omega) (by decide) (fits (by omega))
  have seconds := ticks 10000000 rfl hs (by omega) (by decide) (fits (by omega))
  have milliseconds := ticks 10000 rfl hms hmillisecond (by decide) (fits (by omega))
  exact ((hours.add minutes (fits (by omega))).add seconds (fits (by omega))).add milliseconds (fits (by omega))

/-- **Keys without overflow.** -/
theorem key_typed (k : TimeKey) (he : e.eval env = .ok v) (hv : k.Reads v) (hfits : k.Fits v) :
    (k.key e).TypedAt s E env false := by
  cases k with
  | date =>
    obtain ⟨d, hd⟩ := hv
    exact (key_date_isInt he hd (hfits rfl d hd)).typedAt
  | time =>
    obtain ⟨t, ht⟩ := hv
    exact (key_time_isInt he ht).typedAt

end Bind.TimeKey

/-! ## Operators -/

namespace Expr.TypedAt

variable {s : Schema} {env : Env} {nl nr : Bool} {op : BinaryOp} {l r : Expr}

/-- An order with a null operand is null if it is lifted, and false otherwise. -/
theorem relational_null [External] (hop : op.isRelational = true) (hl : l.TypedAt s (fun _ => False) env nl)
    (hr : r.TypedAt s (fun _ => False) env nr) (hnull : (nl || nr) = true) (lifted : Bool) :
    ∃ u, (mkBinary op l r lifted).eval env = .ok u ∧ (u.isNull = true ∨ u = .bool false) := by
  obtain ⟨a, ha, rfl⟩ := hl.exists_eval
  obtain ⟨b, hb, rfl⟩ := hr.exists_eval
  have hlogical : op.isLogical = false := by cases op <;> first | rfl | cases hop
  have hcomparison : op.isComparison = true := by cases op <;> first | rfl | cases hop
  rw [eval_mkBinary hlogical, ha, hb]
  simp only [Outcome.ok_bind, BinaryOp.apply, hlogical, hcomparison, Bool.false_eq_true, if_false, if_true,
    BinaryOp.compareValues, hnull]
  refine ⟨_, rfl, ?_⟩
  cases lifted with
  | true => exact .inl rfl
  | false => cases op <;> first | exact .inr rfl | cases hop

end Expr.TypedAt

namespace Bind

variable {l r l' r' : Expr} {k : TimeKey}

theorem TimeKey.forTypes?_same {a b : HostType} (h : a.nonNullable = b.nonNullable) :
    forTypes? a b = none := by
  unfold forTypes?
  exact if_pos h

/-- The literal null takes the type of the other operand. -/
theorem unifyNulls_types (l r : Expr) : unifyNulls l r = (l, r) ∨
    ((unifyNulls l r).1.type.nonNullable = (unifyNulls l r).2.type.nonNullable ∧
      ((unifyNulls l r).1 = l ∨ (unifyNulls l r).2 = r)) := by
  unfold unifyNulls
  split
  · exact .inr ⟨r.type.nonNullable_toNullable, .inr rfl⟩
  · exact .inr ⟨l.type.nonNullable_toNullable.symm, .inl rfl⟩
  · exact .inl rfl

section Unified

variable (he : unifyEnums l r = .ok (l', r'))
  (henum : ∀ enum, unifiedBy? l.type r.type = some enum → ∃ w, enum.underlying = .int w)
include he henum

/-- Either no operand is a value of an enumeration, or both are numbers of one type. -/
theorem unify_cases : (l' = l ∧ r' = r) ∨ ∃ w : IntWidth,
    (unifyNulls l' r').1.type.nonNullable = .int w ∧ (unifyNulls l' r').2.type.nonNullable = .int w := by
  rcases unifyEnums_cases he with ⟨-, rfl, rfl⟩ | ⟨enum, hunified, ha, hb⟩
  · exact .inl ⟨rfl, rfl⟩
  · obtain ⟨w, hw⟩ := henum enum hunified
    have hat := type_toUnderlying hw ha
    have hbt := type_toUnderlying hw hb
    refine .inr ⟨w, ?_⟩
    rcases unifyNulls_types l' r' with h | ⟨htypes, h | h⟩
    · rw [h]
      exact ⟨hat, hbt⟩
    · rw [← htypes, h]
      exact ⟨hat, hat⟩
    · rw [htypes, h]
      exact ⟨hbt, hbt⟩

/-- Only operands that are left as they are have keys. -/
theorem eq_self_of_forTypes?
    (hk : TimeKey.forTypes? (unifyNulls l' r').1.type (unifyNulls l' r').2.type = some k) :
    unifyNulls l' r' = (l, r) := by
  rcases unify_cases he henum with ⟨rfl, rfl⟩ | ⟨w, hl, hr⟩
  · refine (unifyNulls_types l' r').resolve_right fun h => ?_
    rw [TimeKey.forTypes?_same h.1] at hk
    cases hk
  · rw [TimeKey.forTypes?_same (hl.trans hr.symm)] at hk
    cases hk

/-- Numbers are no texts and no byte sequences. -/
theorem AreOrdinal.of_unifyEnums (h : AreOrdinal (unifyNulls l' r').1 (unifyNulls l' r').2) :
    AreOrdinal (unifyNulls l r).1 (unifyNulls l r).2 := by
  rcases unify_cases he henum with ⟨rfl, rfl⟩ | ⟨w, hl, -⟩
  · exact h
  · rcases h with ⟨h, -⟩ | ⟨h, -⟩ <;> rw [h] at hl <;> cases hl

end Unified

end Bind

namespace Context

variable {ctx : Context} {s : Schema} {env : Env} {nl nr : Bool} {op : BinaryOp} {e l r : Expr}

section Null

variable [External] (hl : l.TypedAt s (fun _ => False) env nl) (hr : r.TypedAt s (fun _ => False) env nr)
  (hnull : (nl || nr) = true)
include hl hr hnull

/-- An order or arithmetic on operands that are brought to one type. -/
theorem operation_null {p : Expr × Expr} (hop : op.isLogical = false)
    (hequality : op.isComparison = true → op.isRelational = true) (hp : Bind.promote l r = .ok p) :
    ∃ u, (ctx.operation op p.1 p.2).eval env = .ok u ∧ (u.isNull = true ∨ u = .bool false) := by
  obtain ⟨hpl, hpr, htype⟩ := Bind.promote_typed hl hr hp
  unfold operation
  cases hcomparison : op.isComparison with
  | true => exact hpl.relational_null (hequality hcomparison) hpr hnull _
  | false =>
    obtain ⟨u, hu, hisNull⟩ := (hpl.arithmetic_of hop hcomparison hpr htype fun hnl hnr => by
      rw [hnl, hnr] at hnull
      cases hnull).exists_eval
    exact ⟨u, hu, .inl (hisNull.trans hnull)⟩

/-- Texts or byte sequences, of which null comes first, in an order that does not hold then. -/
theorem ordinal_null (hop : op.isRelational = true) (he : Bind.ordinal? op l r = some e)
    (hfirst : op.holds (compare nr nl) = false) : e.eval env = .ok (.bool false) := by
  obtain ⟨a, ha, rfl⟩ := hl.exists_eval
  obtain ⟨b, hb, rfl⟩ := hr.exists_eval
  have hcompare : a.compareNullFirst? b = some (compare b.isNull a.isNull) := by
    unfold Value.compareNullFirst?
    cases hna : a.isNull <;> cases hnb : b.isNull <;> first | rfl | (rw [hna, hnb] at hnull; cases hnull)
  rw [Bind.ordinal?_relational hop] at he
  split_ifs at he
  cases he
  rw [Expr.eval_ordinal hop, ha, hb, Outcome.ok_bind, Outcome.ok_bind, hcompare, Option.map_some, hfirst]
  rfl

/-- An order of operands, with keys that fit, and not of texts or byte sequences that null satisfies. -/
theorem comparison_null (hop : op.isRelational = true) (he : ctx.comparison op l r = .ok e)
    (hordinal : Bind.AreOrdinal l r → op.holds (compare nr nl) = false)
    (hkeys : ∀ k, Bind.TimeKey.forTypes? l.type r.type = some k →
      ∀ v, l.eval env = .ok v ∨ r.eval env = .ok v → k.Fits v) :
    ∃ u, e.eval env = .ok u ∧ (u.isNull = true ∨ u = .bool false) := by
  have hlogical := BinaryOp.isLogical_of_isComparison (BinaryOp.isComparison_of_isRelational hop)
  rcases comparison_cases he with ⟨k, p, hk, hp, rfl⟩ | h | ⟨p, hp, rfl⟩
  · obtain ⟨hlt, hrt⟩ := Bind.TimeKey.forTypes?_eq_some hk
    obtain ⟨hkl, -⟩ := k.project_typed hl (fun v hv hadmits hnull => k.key_typed hv
      (Bind.TimeKey.reads_of_forTypes? hk hnull (.inl hadmits)) (hkeys k hk v (.inl hv))) hlt
    obtain ⟨hkr, -⟩ := k.project_typed hr (fun v hv hadmits hnull => k.key_typed hv
      (Bind.TimeKey.reads_of_forTypes? hk hnull (.inr hadmits)) (hkeys k hk v (.inr hv))) hrt
    exact operation_null hkl hkr hnull hlogical (fun _ => hop) hp
  · exact ⟨.bool false, ordinal_null hl hr hnull hop h (hordinal (Bind.areOrdinal_of_ordinal? h)), .inr rfl⟩
  · exact operation_null hl hr hnull hlogical (fun _ => hop) hp

end Null

theorem hasFlag_cases (he : ctx.hasFlag l r = .ok e) :
    ∃ flag, e = ctx.guardIfNeeded l (.mkScalar .hasFlag [l, flag]) := by
  unfold hasFlag at he
  split at he
  next => cases he
  next enum _ =>
    dsimp only at he
    split_ifs at he
    · cases he
      exact ⟨r, rfl⟩
    · obtain ⟨value, -, he⟩ := Outcome.bind_eq_ok.mp he
      cases he
      exact ⟨_, rfl⟩

/-- The test of flags of a null operand is null. -/
theorem hasFlag_null [External] {v : Value} (hnull : ctx.settings.nullPropagation = true)
    (he : ctx.hasFlag l r = .ok e) (hv : l.eval env = .ok v) (hvt : s.admits l.type v = true)
    (hisNull : v.isNull = true) (hcurrent : ctx.isCurrent l = false) :
    ∃ u, e.eval env = .ok u ∧ u.isNull = true := by
  have hguard : ctx.needsGuard l = true := by
    have hconst := Expr.isNonNullConst_of_eval hv hisNull
    simp [needsGuard, hnull, Schema.isNullable_of_admits hvt hisNull, hcurrent, hconst]
  have htest := Expr.eval_isNull l l.type env
  rw [hv, Outcome.ok_bind, hisNull] at htest
  obtain ⟨flag, rfl⟩ := hasFlag_cases he
  rw [guardIfNeeded, if_pos hguard, Expr.guardedBy, Expr.mkCond, Expr.eval_cond_of_bool htest]
  exact ⟨.null, rfl, rfl⟩

end Context

/-- Whether an order in which null comes first holds of two values, one of which is null. -/
def QueryOp.holdsNullFirst (op : QueryOp) (v w : Value) : Bool :=
  match op with
  | .lt => v.isNull && !w.isNull
  | .le => v.isNull
  | .gt => w.isNull && !v.isNull
  | .ge => w.isNull
  | _ => false

theorem QueryOp.holds_of_holdsNullFirst {op : QueryOp} {bop : BinaryOp} {v w : Value}
    (hop : op.binaryOp? = some bop) (hrelational : op.isRelational = true)
    (hnull : (v.isNull || w.isNull) = true) (h : op.holdsNullFirst v w = false) :
    bop.holds (compare w.isNull v.isNull) = false := by
  unfold holdsNullFirst at h
  generalize v.isNull = a at hnull h
  generalize w.isNull = b at hnull h
  cases op <;> first | (cases hrelational; done) | cases hop
  all_goals revert a b; decide

/-- **A null operand never satisfies an operator**: with null propagation, an order, arithmetic or a test of
flags has a value where one of its operands is null, and the value is null or false. -/
theorem null_operands_never_satisfy [External] {ctx : Context} {op : QueryOp} {l r e : Expr} {s : Schema}
    {env : Env}
    {v w : Value} (hpropagation : ctx.settings.nullPropagation = true) (hop : op.isLogical = false)
    (hequality : op.isEquality = false) (he : ctx.binary op l r = .ok e) (hv : l.eval env = .ok v)
    (hw : r.eval env = .ok w) (hvt : s.admits l.type v = true) (hwt : s.admits r.type w = true)
    (hnull : v.isNull = true ∨ w.isNull = true)
    -- a test of flags asks whether its left operand is null, but not of the record of the clause; and not whether the
    -- flag is
    (hflags : op = .has → v.isNull = true ∧ ctx.isCurrent l = false)
    -- texts and byte sequences are ordered with null first, which some orders hold of
    (hordinal : Bind.AreOrdinal (Bind.unifyNulls l r).1 (Bind.unifyNulls l r).2 → op.holdsNullFirst v w = false)
    -- what is converted to a number, or to a key, has to fit
    (henum : op ≠ .has → ∀ enum, Bind.unifiedBy? l.type r.type = some enum → ∃ width, enum.underlying = .int width ∧
      ∀ n, v.asInt? = some n ∨ w.asInt? = some n → width.Holds n)
    (hkeys : op.isRelational = true →
      ∀ k, Bind.TimeKey.forTypes? l.type r.type = some k → k.Fits v ∧ k.Fits w) :
    ∃ u, e.eval env = .ok u ∧ (u.isNull = true ∨ u = .bool false) := by
  by_cases hhas : op = .has
  · subst hhas
    obtain ⟨hisNull, hcurrent⟩ := hflags rfl
    obtain ⟨u, hu, hisNull⟩ := Context.hasFlag_null hpropagation he hv hvt hisNull hcurrent
    exact ⟨u, hu, .inl hisNull⟩
  · replace henum := henum hhas
    obtain ⟨bop, a, b, hbop, hunify, hcases⟩ := Context.binary_cases hhas he
    have hsome : (v.isNull || w.isNull) = true := by rwa [Bool.or_eq_true]
    have hint (enum : EnumType) (hunified : Bind.unifiedBy? l.type r.type = some enum) :
        ∃ width, enum.underlying = .int width := (henum enum hunified).imp fun _ => And.left
    obtain ⟨ha, hb⟩ := Bind.unifyEnums_typed (E := fun _ => False) (Expr.typedAt_of_eval hv hvt)
      (Expr.typedAt_of_eval hw hwt) (fun enum hunified => by
        obtain ⟨width, hwidth, hfits⟩ := henum enum hunified
        refine ⟨width, hwidth, fun x n hx hn => .inl ?_, fun x n hx hn => .inl ?_⟩
        · cases hv.symm.trans hx
          exact hfits n (.inl hn)
        · cases hw.symm.trans hx
          exact hfits n (.inr hn)) hunify
    obtain ⟨hna, hnb⟩ := Bind.unifyNulls_typed ha hb
    rcases hcases with ⟨hlogical, -⟩ | ⟨hcomparison, he⟩ | ⟨hlogical, hcomparison, p, hp, rfl⟩
    · cases op <;> cases hbop <;> first | (cases hop; done) | cases hlogical
    · have hrelational : bop.isRelational = true ∧ op.isRelational = true := by
        cases op <;> cases hbop <;> first | exact ⟨rfl, rfl⟩ | (cases hequality; done) | cases hcomparison
      refine Context.comparison_null hna hnb hsome hrelational.1 he
        (fun h => QueryOp.holds_of_holdsNullFirst hbop hrelational.2 hsome (hordinal (h.of_unifyEnums hunify hint)))
        fun k hk x hx => ?_
      have hself := Bind.eq_self_of_forTypes? hunify hint hk
      rw [hself] at hk hx
      rcases hx with hx | hx
      · cases hv.symm.trans hx
        exact (hkeys hrelational.2 k hk).1
      · cases hw.symm.trans hx
        exact (hkeys hrelational.2 k hk).2
    · refine Context.operation_null hna hnb hsome hlogical (fun h => ?_) hp
      rw [hcomparison] at h
      cases h

/-- A day on which something is due, which may be null. -/
def dueDate : Expr := .param ⟨1, "due", HostType.date.toNullable⟩

/-- What is due on no day is not due before the start of a year. -/
theorem null_dates_are_not_early :
    ∃ e u, plainContext.binary .lt dueDate (.mkConst (.dateTimeOffset newYear)) = .ok e ∧
      e.eval [(1, .null)] = .ok u ∧ (u.isNull = true ∨ u = .bool false) := by
  have hordinal : ¬ Bind.AreOrdinal (Bind.unifyNulls dueDate (.mkConst (.dateTimeOffset newYear))).1
      (Bind.unifyNulls dueDate (.mkConst (.dateTimeOffset newYear))).2 := by
    rintro (⟨h, -⟩ | ⟨h, -⟩) <;> cases h
  have hkeys (k : Bind.TimeKey) : k.Fits .null ∧ k.Fits (.dateTimeOffset newYear) := by
    constructor
    · intro _ d hd
      cases hd
    · intro _ d hd
      cases hd
      decide
  obtain ⟨e, he⟩ : ∃ e, plainContext.binary .lt dueDate (.mkConst (.dateTimeOffset newYear)) = .ok e :=
    ⟨_, rfl⟩
  have hv : dueDate.eval [(1, .null)] = .ok .null := rfl
  obtain ⟨u, hu, hnull⟩ := null_operands_never_satisfy (s := .empty) rfl rfl rfl he hv rfl rfl rfl (.inl rfl)
    (fun h => by cases h) (fun h => absurd h hordinal) (fun _ enum h => by cases h) fun _ k _ => hkeys k
  exact ⟨e, u, he, hu, hnull⟩

/-- A name, which may be null. -/
def someName : Expr := .param ⟨1, "name", .string⟩

/-- The clause over grades. -/
def optionalGradeContext : Context := .initial .empty {} gradeType.toNullable

/-- Null comes before every text, a null flag makes a test of flags fail, and so does the record of the clause where it
is null; and a number that is too large for grades next to a null grade is an error. -/
theorem null_operands_satisfy_or_fail :
    (∃ e, plainContext.binary .lt someName (.mkConst (.string "a")) = .ok e ∧
      e.eval [(1, .null)] = .ok (.bool true)) ∧
    (∃ e, plainContext.binary .has goodGrade (.param ⟨1, "flag", gradeType.toNullable⟩) = .ok e ∧
      e.eval [(1, .null)] = .error (.evaluation (.notApplicable .hasFlag [.enum "Grade" 2, .null]))) ∧
    (∃ e, optionalGradeContext.binary .has optionalGradeContext.currentExpr goodGrade = .ok e ∧
      e.eval [(0, .null)] = .error (.evaluation (.notApplicable .hasFlag [.null, .enum "Grade" 2]))) ∧
    ∃ e, plainContext.binary .lt (.param ⟨1, "grade", gradeType.toNullable⟩)
        (.const (.int32 1000) (HostType.int .int32).toNullable) = .ok e ∧
      e.eval [(1, .null)] = .error (.evaluation (.overflow 1000 (.int .byte))) :=
  ⟨⟨_, rfl, rfl⟩, ⟨_, rfl, rfl⟩, ⟨_, rfl, rfl⟩, _, rfl, rfl⟩

end TypedQuery
