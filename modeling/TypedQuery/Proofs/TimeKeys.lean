import Mathlib.Data.Int.Order.Basic
import Mathlib.Order.Nat
import TypedQuery.Proofs.IntegerOperators

/-!
# Comparisons of dates and times of different types

A date is compared with a time stamp by numbers that stand for the calendar dates, in 32 bits: they are in
the order of the dates, and a year that is too far from zero for its number is an overflow. Times of different
types are compared by numbers that count the clock's milliseconds in ticks of 100 ns: what is less than a
millisecond does not count, and neither do the whole days of a span.

* `Day.key`, `Value.clockTicks?`: the numbers.
* `Day.compare_key`: the numbers of dates are in the order of the dates.
* `Context.exists_key_comparison`: a comparison by keys.
* **`dates_compare_as_days`**: a date and a time stamp.
* **`times_compare_by_milliseconds`**: times of different types.
* `ticks_do_not_decide`: a time of day of one tick, and an empty span.
-/

namespace TypedQuery

/-! ## The numbers of dates -/

/-- A number in a base and its last digit are ordered by the number first. -/
theorem compare_digit {b m n k l : Int} (hk : 0 ≤ k ∧ k < b) (hl : 0 ≤ l ∧ l < b) :
    compare (m * b + k) (n * b + l) = (compare m n).then (compare k l) := by
  have hbase : 0 ≤ b := by omega
  have below {m n k l : Int} (hk : k < b) (hl : 0 ≤ l) (h : m < n) : m * b + k < n * b + l := by
    have hstep : (m + 1) * b ≤ n * b := Int.mul_le_mul_of_nonneg_right h hbase
    have hsplit : (m + 1) * b = m * b + b := by rw [Int.add_mul, Int.one_mul]
    omega
  rcases lt_trichotomy m n with h | rfl | h
  · rw [compare_lt_iff_lt.mpr h, compare_lt_iff_lt.mpr (below hk.2 hl.1 h)]
    rfl
  · rw [compare_eq_iff_eq.mpr rfl]
    show compare (m * b + k) (m * b + l) = compare k l
    rcases lt_trichotomy k l with h | rfl | h
    · rw [compare_lt_iff_lt.mpr h]
      exact compare_lt_iff_lt.mpr (by omega)
    · rw [compare_eq_iff_eq.mpr rfl, compare_eq_iff_eq.mpr rfl]
    · rw [compare_gt_iff_gt.mpr h]
      exact compare_gt_iff_gt.mpr (by omega)
  · rw [compare_gt_iff_gt.mpr h, compare_gt_iff_gt.mpr (below hl.2 hk.1 h)]
    rfl

theorem compare_natCast (m n : Nat) : compare (m : Int) n = compare m n := by
  rcases lt_trichotomy m n with h | rfl | h
  · rw [compare_lt_iff_lt.mpr h]
    exact compare_lt_iff_lt.mpr (by omega)
  · rw [compare_eq_iff_eq.mpr rfl, compare_eq_iff_eq.mpr rfl]
  · rw [compare_gt_iff_gt.mpr h]
    exact compare_gt_iff_gt.mpr (by omega)

namespace Day

/-- The number that stands for a date. -/
def key (d : Day) : Int := d.year * 10000 + d.month * 100 + d.day

/-- Whether the number of a date has 32 bits. -/
def HasKey (d : Day) : Prop := -214748 ≤ d.year ∧ d.year ≤ 214748

instance (d : Day) : Decidable d.HasKey := inferInstanceAs (Decidable (_ ∧ _))

/-- **The numbers of dates are in the order of the dates**, before year zero as well. -/
theorem compare_key {a b : Day} (ha : a.month ≤ 12 ∧ a.day ≤ 31) (hb : b.month ≤ 12 ∧ b.day ≤ 31) :
    Ord.compare a.key b.key = a.compare b := by
  have hkey (d : Day) : d.key = (d.year * 100 + d.month) * 100 + d.day := by
    unfold key
    omega
  have hdigit {n : Nat} (hn : n ≤ 31) : 0 ≤ (n : Int) ∧ (n : Int) < 100 := by omega
  rw [hkey, hkey, compare_digit (hdigit ha.2) (hdigit hb.2),
    compare_digit (hdigit (by omega)) (hdigit (by omega)), compare_natCast, compare_natCast]
  unfold Day.compare
  cases Ord.compare a.year b.year <;> rfl

/-- The days of the calendar have numbers of a few million. -/
theorem Exists.number_bounds {d : Day} (h : d.Exists) : -100000000 ≤ d.number ∧ d.number ≤ 100000000 := by
  obtain ⟨⟨hleast, hgreatest⟩, ⟨hmonth, hmonth'⟩, hday, hday'⟩ := h
  have hlength : monthLength d.year d.month ≤ 31 := by
    unfold monthLength
    split_ifs <;> decide
  unfold leastYear at hleast
  unfold greatestYear at hgreatest
  unfold number
  dsimp only
  rw [Int.fdiv_eq_ediv_of_nonneg _ (by decide)]
  split_ifs <;> omega

/-- A day that is at most as far away has a year of six digits. -/
theorem ofNumber_year_bounds {n : Int} (h : -100000001 ≤ n ∧ n ≤ 100000001) :
    -300000 ≤ (ofNumber n).year ∧ (ofNumber n).year ≤ 300000 := by
  unfold ofNumber
  dsimp only
  rw [Int.fdiv_eq_ediv_of_nonneg _ (by decide)]
  split_ifs <;> omega

end Day

namespace Value

variable {v : Value} {d : Day}

theorem dateKey?_eq (v : Value) : v.dateKey? = v.dayPart?.map Day.key := by
  cases v <;> rfl

/-- An offset of less than a day moves a date by a day at most. -/
theorem dayPart?_year_bounds (h : v.dayPart? = some d) : -300000 ≤ d.year ∧ d.year ≤ 300000 := by
  have hexists {d : Day} (h : d.Exists) : -300000 ≤ d.year ∧ d.year ≤ 300000 := by
    obtain ⟨⟨hleast, hgreatest⟩, -⟩ := h
    unfold Day.leastYear at hleast
    unfold Day.greatestYear at hgreatest
    omega
  cases v <;> cases h
  case date d => exact hexists d.exists_day
  case dateTime t => exact hexists t.date.exists_day
  case dateTimeOffset t =>
    have hnumber := t.utc.date.exists_day.number_bounds
    have hsecond := t.utc.time.bounded.1
    have hoffset := t.bounded
    exact Day.ofNumber_year_bounds (by omega)

end Value

/-! ## The numbers of times -/

/-- The ticks that the parts of a time add up to. -/
def TimeParts.key (t : TimeParts) : Int :=
  t.hour * 36000000000 + t.minute * 600000000 + t.second * 10000000 + t.nanos.tdiv 1000000 * 10000

theorem Time.key_parts (t : Time) : t.parts.key = t.ticks / 10000 * 10000 := by
  have hbounded := t.bounded
  unfold TimeParts.key Time.parts Time.hourPart Time.minutePart Time.secondPart Time.ticks
  dsimp only
  rw [Int.tdiv_eq_ediv_of_nonneg (by omega)]
  omega

/-- The parts of a span have its sign, and do not count its whole days. -/
theorem Span.key_parts (s : Span) :
    s.parts.key = (s.nanos.tmod (secondsPerDay * nanosPerSecond)).tdiv 1000000 * 10000 := by
  unfold TimeParts.key Span.parts Span.seconds Span.subsecond secondsPerDay nanosPerSecond
  dsimp only
  obtain ⟨n, h | h⟩ := Int.eq_nat_or_neg s.nanos
  · rw [h]
    simp (disch := omega) only [Int.tdiv_eq_ediv_of_nonneg, Int.tmod_eq_emod_of_nonneg]
    omega
  · rw [h]
    simp only [Int.neg_tdiv, Int.neg_tmod]
    simp (disch := omega) only [Int.tdiv_eq_ediv_of_nonneg, Int.tmod_eq_emod_of_nonneg]
    omega

namespace Value

/-- Ticks of 100 ns in the whole milliseconds that the clock shows: of the time of day, or of a span beyond its
whole days. -/
def clockTicks? : Value → Option Int
  | .timeSpan s => some ((s.nanos.tmod (secondsPerDay * nanosPerSecond)).tdiv 1000000 * 10000)
  | v => v.timeTicks?.map fun n => n / 10000 * 10000

/-- Whether the ticks of a value are those that the clock shows: whole milliseconds, and less than a day if it is a
span. -/
def ShowsTicks (v : Value) : Prop :=
  ∀ n, v.timeTicks? = some n → n % 10000 = 0 ∧ (v.isInstanceOf .timeSpan = true → n.natAbs < 864000000000)

variable {v : Value}

theorem clockTicks?_eq (v : Value) : v.clockTicks? = v.timeParts?.map TimeParts.key := by
  cases v with
  | timeOfDay t => exact congrArg some t.key_parts.symm
  | dateTime t => exact congrArg some t.time.key_parts.symm
  | dateTimeOffset t => exact congrArg some t.time.key_parts.symm
  | timeSpan s => exact congrArg some s.key_parts.symm
  | _ => rfl

/-- Ticks that the clock shows are all that there are. -/
theorem ShowsTicks.clockTicks? {n : Int} (h : v.ShowsTicks) (hn : v.timeTicks? = some n) :
    v.clockTicks? = some n := by
  obtain ⟨hwhole, hday⟩ := h n hn
  by_cases hspan : ∃ s, v = .timeSpan s
  · obtain ⟨s, rfl⟩ := hspan
    have hday := hday rfl
    have hticks : s.ticks? = some n := hn
    unfold Span.ticks? at hticks
    dsimp only at hticks
    split_ifs at hticks
    cases hticks
    show some _ = some _
    unfold secondsPerDay nanosPerSecond
    obtain ⟨k, h | h⟩ := Int.eq_nat_or_neg s.nanos
    · rw [h] at hwhole hday ⊢
      simp (disch := omega) only [Int.tdiv_eq_ediv_of_nonneg, Int.tmod_eq_emod_of_nonneg] at hwhole hday ⊢
      congr 1
      omega
    · rw [h] at hwhole hday ⊢
      simp only [Int.neg_tdiv, Int.neg_tmod] at hwhole hday ⊢
      simp (disch := omega) only [Int.tdiv_eq_ediv_of_nonneg, Int.tmod_eq_emod_of_nonneg] at hwhole hday ⊢
      congr 1
      omega
  · have hclock : v.clockTicks? = v.timeTicks?.map fun n => n / 10000 * 10000 := by
      cases v <;> first | rfl | exact absurd ⟨_, rfl⟩ hspan
    rw [hclock, hn]
    show some (n / 10000 * 10000) = some n
    congr 1
    omega

end Value

/-! ## Comparisons by keys -/

namespace Bind.TimeKey

variable {a b : HostType} {k : TimeKey} {env : Env} {e : Expr} {v : Value} {d : Day} {n : Int}

/-- The width of a key. -/
def width : TimeKey → IntWidth
  | .date => .int32
  | .time => .int64

theorem type_eq (k : TimeKey) : k.type = .int k.width := by cases k <;> rfl

theorem width_ne (k : TimeKey) : k.width ≠ .uint64 := by cases k <;> decide

theorem forTypes?_of_dates
    (h : (a.nonNullable = .date ∧ (b.nonNullable = .dateTime ∨ b.nonNullable = .dateTimeOffset)) ∨
    ((a.nonNullable = .dateTime ∨ a.nonNullable = .dateTimeOffset) ∧ b.nonNullable = .date)) :
    forTypes? a b = some .date := by
  unfold forTypes?
  rcases h with ⟨ha, hb | hb⟩ | ⟨ha | ha, hb⟩ <;> rw [ha, hb] <;> rfl

theorem forTypes?_of_times (ha : a.hasTimeOfDay = true) (hb : b.hasTimeOfDay = true)
    (hne : a.nonNullable ≠ b.nonNullable) (htime : a.isTimeFamily = true ∨ b.isTimeFamily = true) :
    forTypes? a b = some .time := by
  unfold forTypes?
  unfold HostType.hasTimeOfDay at ha hb
  unfold HostType.isTimeFamily at htime
  generalize a.nonNullable = t at ha hne htime ⊢
  generalize b.nonNullable = u at hb hne htime ⊢
  cases t <;> first | (cases ha; done) | skip
  all_goals
    cases u <;> first | (cases hb; done) | exact absurd rfl hne | skip
  all_goals first | rfl | (rcases htime with h | h <;> cases h)

/-- Dates and times are no values of enumerations. -/
theorem asEnum?_of_forTypes? (h : forTypes? a b = some k) : a.asEnum? = none ∧ b.asEnum? = none := by
  have hnone {t : HostType} (ht : t.nonNullable.isDateFamily = true ∨ hasTime t.nonNullable = true) :
      t.asEnum? = none := by
    unfold HostType.asEnum?
    generalize t.nonNullable = u at ht ⊢
    cases u <;> first | rfl | (rcases ht with ht | ht <;> cases ht)
  unfold forTypes? at h
  dsimp only at h
  split_ifs at h with _ hdate htime
  · exact ⟨hnone (.inl hdate.2.1), hnone (.inl hdate.2.2)⟩
  · exact ⟨hnone (.inr htime.2.1), hnone (.inr htime.2.2)⟩

/-- The key of what is not null is an integer. -/
theorem project_hasInt [External] (hv : e.eval env = .ok v) (hnull : v.isNull = false) (hreads : k.Reads v)
    (hkey : (k.key e).IsInt env k.width n) : (k.project e).HasInt env k.width (some n) := by
  obtain ⟨-, hn, hkey⟩ := hkey
  refine ⟨?_, hn, (eval_project hv hnull hreads).trans hkey⟩
  rw [type_project (Expr.isNullConst_of_eval hv hnull), HostType.nonNullable_nullableLike, type_eq]
  rfl

/-- The year of a date that has no key is an overflow. -/
theorem key_date_overflow [External] (hv : e.eval env = .ok v) (hd : v.dayPart? = some d) (hkey : ¬d.HasKey) :
    (key .date e).eval env = .error (.evaluation (.overflow (d.year * 10000) (.int .int32))) := by
  have hbounds := Value.dayPart?_year_bounds hd
  have hyear : IntWidth.int32.Holds d.year := by
    show -2147483648 ≤ d.year ∧ d.year ≤ 2147483647
    omega
  have hmisfit : ¬IntWidth.int32.Holds (d.year * 10000) := by
    show ¬(-2147483648 ≤ d.year * 10000 ∧ d.year * 10000 ≤ 2147483647)
    unfold Day.HasKey at hkey
    omega
  have hproduct : (datePart e .year 10000).eval env =
      .error (.evaluation (.overflow (d.year * 10000) (.int .int32))) :=
    Expr.IsInt.overflow rfl rfl (part_isInt hv rfl (apply_dateParts hd).1 hyear)
      (isInt_const32 (n := 10000) (by decide)) (QueryOp.within128_of_natAbs_le (by omega)) hmisfit
  unfold key
  rw [Expr.eval_mkBinary rfl, Expr.eval_mkBinary rfl, hproduct]
  rfl

end Bind.TimeKey

namespace Context

variable {ctx : Context} {op : QueryOp} {l r : Expr} {k : Bind.TimeKey} {env : Env} {a b : Value}

/-- **A comparison by keys** is one of integers, and fails where a key does, the left one first. -/
theorem exists_key_comparison [External] (ctx : Context) (hop : op.isComparison = true)
    (hk : Bind.TimeKey.forTypes? l.type r.type = some k) (ha : l.eval env = .ok a) (hb : r.eval env = .ok b)
    (hna : a.isNull = false) (hnb : b.isNull = false) (hra : k.Reads a) (hrb : k.Reads b) :
    ∃ e, ctx.binary op l r = .ok e ∧
      (∀ m n, (k.key l).IsInt env k.width m → (k.key r).IsInt env k.width n →
        e.eval env = .ok (.bool (op.holds (compare m n)))) ∧
      (∀ err, (k.key l).eval env = .error err → e.eval env = .error err) ∧
      ∀ m err, (k.key l).IsInt env k.width m → (k.key r).eval env = .error err → e.eval env = .error err := by
  obtain ⟨bop, hbop⟩ := QueryOp.exists_binaryOp (.inr hop)
  have hlogical := QueryOp.isLogical_binaryOp hbop (.inr hop)
  have hlc := Expr.isNullConst_of_eval ha hna
  have hrc := Expr.isNullConst_of_eval hb hnb
  have hkind {x : Expr} (hx : x.isNullConst = false) : (k.project x).type.nonNullable = .int k.width := by
    rw [Bind.TimeKey.type_project hx, HostType.nonNullable_nullableLike, k.type_eq]
    rfl
  obtain ⟨p, target, t, hp, -, hlift, hrift⟩ :=
    Bind.exists_promote_int (hkind hlc) (hkind hrc) k.width_ne k.width_ne
  have hbinary : ctx.binary op l r = .ok (ctx.operation bop p.1 p.2) := by
    obtain ⟨hlt, hrt⟩ := Bind.TimeKey.asEnum?_of_forTypes? hk
    rw [binary_of_plain hbop hlogical hlt hrt hlc hrc, (QueryOp.isComparison_binaryOp hbop).trans hop,
      if_pos rfl, comparison, hk]
    show Bind.promote _ _ >>= _ = _
    rw [hp]
    rfl
  have hleft := Bind.TimeKey.eval_project (k := k) ha hna hra
  have hright := Bind.TimeKey.eval_project (k := k) hb hnb hrb
  refine ⟨_, hbinary, fun m n hm hn => ?_, fun err herr => ?_, fun m err hm herr => ?_⟩
  · exact eval_operation_comparison hlift hrift (Bind.TimeKey.isNullConst_project hlc)
      (Bind.TimeKey.isNullConst_project hrc) hbop hop (Bind.TimeKey.project_hasInt ha hna hra hm)
      (Bind.TimeKey.project_hasInt hb hnb hrb hn)
  · rw [operation, Expr.eval_mkBinary hlogical, hlift.error (hleft.trans herr)]
    rfl
  · obtain ⟨-, hfits, hm⟩ := hlift.hasInt (Bind.TimeKey.project_hasInt ha hna hra hm)
    rw [operation, Expr.eval_mkBinary hlogical, hm, hrift.error (hright.trans herr)]
    rfl

end Context

/-- **A date is compared with a time stamp by the calendar**: the comparison is that of the years, months and days,
of an instant those that its offset shows, and that of the keys of the two values. A year that is too far from zero
for a key in 32 bits is an overflow. -/
theorem dates_compare_as_days [External] {ctx : Context} {op : QueryOp} {l r : Expr} {s : Schema}
    {env : Env} {a b : Value} (hop : op.isComparison = true) (htypes : (l.type.nonNullable = .date ∧
        (r.type.nonNullable = .dateTime ∨ r.type.nonNullable = .dateTimeOffset)) ∨
      ((l.type.nonNullable = .dateTime ∨ l.type.nonNullable = .dateTimeOffset) ∧ r.type.nonNullable = .date))
    (ha : l.HasValue s env a) (hb : r.HasValue s env b) (hna : a.isNull = false) (hnb : b.isNull = false) :
    ∃ e d d', ctx.binary op l r = .ok e ∧ a.dayPart? = some d ∧ b.dayPart? = some d' ∧
      (d.HasKey → d'.HasKey → e.eval env = .ok (.bool (op.holds (d.compare d'))) ∧
        ∀ m n, a.dateKey? = some m → b.dateKey? = some n →
          e.eval env = .ok (.bool (op.holds (compare m n)))) ∧
      (¬(d.HasKey ∧ d'.HasKey) →
        ∃ n, e.eval env = .error (.evaluation (.overflow n (.int .int32)))) := by
  have hk := Bind.TimeKey.forTypes?_of_dates htypes
  obtain ⟨d, hd⟩ := Bind.TimeKey.reads_of_forTypes? hk hna (.inl ha.2)
  obtain ⟨d', hd'⟩ := Bind.TimeKey.reads_of_forTypes? hk hnb (.inr hb.2)
  obtain ⟨e, he, hvalue, hleft, hright⟩ :=
    Context.exists_key_comparison ctx hop hk ha.1 hb.1 hna hnb ⟨d, hd⟩ ⟨d', hd'⟩
  refine ⟨e, d, d', he, hd, hd', fun hkey hkey' => ?_, fun hmisfit => ?_⟩
  · have horder := Day.compare_key (Value.dayPart?_bounds hd) (Value.dayPart?_bounds hd')
    have hdays : e.eval env = .ok (.bool (op.holds (d.compare d'))) := by
      rw [← horder]
      exact hvalue _ _ (Bind.TimeKey.key_date_isInt ha.1 hd hkey) (Bind.TimeKey.key_date_isInt hb.1 hd' hkey')
    refine ⟨hdays, fun m n hm hn => ?_⟩
    rw [Value.dateKey?_eq, hd] at hm
    rw [Value.dateKey?_eq, hd'] at hn
    cases hm
    cases hn
    rw [horder]
    exact hdays
  · by_cases hkey : d.HasKey
    · have hkey' : ¬d'.HasKey := fun h => hmisfit ⟨hkey, h⟩
      exact ⟨_, hright _ _ (Bind.TimeKey.key_date_isInt ha.1 hd hkey)
        (Bind.TimeKey.key_date_overflow hb.1 hd' hkey')⟩
    · exact ⟨_, hleft _ (Bind.TimeKey.key_date_overflow ha.1 hd hkey)⟩

/-- A day that something is due is compared with the first instant of 2000, unless it is too far away. -/
theorem dates_compare_as_days_of_due_dates :
    (∃ e, plainContext.binary .lt dueDate (.mkConst (.dateTimeOffset newYear)) = .ok e ∧
      e.eval [(1, .date ⟨⟨1999, 12, 31⟩, by decide⟩)] = .ok (.bool true)) ∧
    ∃ e n, plainContext.binary .lt dueDate (.mkConst (.dateTimeOffset newYear)) = .ok e ∧
      e.eval [(1, .date ⟨⟨214749, 1, 1⟩, by decide⟩)] = .error (.evaluation (.overflow n (.int .int32))) := by
  have hdue (d : Date) : dueDate.HasValue .empty [(1, .date d)] (.date d) := ⟨rfl, rfl⟩
  have hyear (env : Env) : (Expr.mkConst (.dateTimeOffset newYear)).HasValue .empty env
    (.dateTimeOffset newYear) := ⟨rfl, rfl⟩
  constructor
  · obtain ⟨e, d, d', he, hd, hd', hvalue, -⟩ := @dates_compare_as_days _ plainContext .lt _ _ _ _ _ _ rfl
      (.inl ⟨rfl, .inr rfl⟩) (hdue ⟨⟨1999, 12, 31⟩, by decide⟩) (hyear _) rfl rfl
    cases hd
    cases hd'
    exact ⟨e, he, (hvalue (by decide) (by decide)).1⟩
  · obtain ⟨e, d, d', he, hd, -, -, hoverflow⟩ := @dates_compare_as_days _ plainContext .lt _ _ _ _ _ _ rfl
      (.inl ⟨rfl, .inr rfl⟩) (hdue ⟨⟨214749, 1, 1⟩, by decide⟩) (hyear _) rfl rfl
    cases hd
    obtain ⟨n, hn⟩ := hoverflow fun h => absurd h.1 (by decide)
    exact ⟨e, n, he, hn⟩

/-- **Times of different types are compared by the milliseconds of the clock**, so by their ticks if those are whole
milliseconds and a span is shorter than a day. -/
theorem times_compare_by_milliseconds [External] {ctx : Context} {op : QueryOp} {l r : Expr} {s : Schema}
    {env : Env}
    {a b : Value} (hop : op.isComparison = true) (hl : l.type.hasTimeOfDay = true) (hr : r.type.hasTimeOfDay = true)
    (hne : l.type.nonNullable ≠ r.type.nonNullable)
    (htime : l.type.isTimeFamily = true ∨ r.type.isTimeFamily = true)
    (ha : l.HasValue s env a) (hb : r.HasValue s env b) (hna : a.isNull = false) (hnb : b.isNull = false) :
    ∃ e m n, ctx.binary op l r = .ok e ∧ a.clockTicks? = some m ∧ b.clockTicks? = some n ∧
      e.eval env = .ok (.bool (op.holds (compare m n))) ∧
      (a.ShowsTicks → b.ShowsTicks → ∀ m n, a.timeTicks? = some m → b.timeTicks? = some n →
        e.eval env = .ok (.bool (op.holds (compare m n)))) := by
  have hk := Bind.TimeKey.forTypes?_of_times hl hr hne htime
  obtain ⟨t, ht⟩ := Bind.TimeKey.reads_of_forTypes? hk hna (.inl ha.2)
  obtain ⟨t', ht'⟩ := Bind.TimeKey.reads_of_forTypes? hk hnb (.inr hb.2)
  obtain ⟨e, he, hvalue, -, -⟩ :=
    Context.exists_key_comparison ctx hop hk ha.1 hb.1 hna hnb ⟨t, ht⟩ ⟨t', ht'⟩
  have hticks : a.clockTicks? = some t.key := by rw [Value.clockTicks?_eq, ht]; rfl
  have hticks' : b.clockTicks? = some t'.key := by rw [Value.clockTicks?_eq, ht']; rfl
  have hclock : e.eval env = .ok (.bool (op.holds (compare t.key t'.key))) :=
    hvalue _ _ (Bind.TimeKey.key_time_isInt ha.1 ht) (Bind.TimeKey.key_time_isInt hb.1 ht')
  refine ⟨e, t.key, t'.key, he, hticks, hticks', hclock, fun hshows hshows' m n hm hn => ?_⟩
  cases hticks.symm.trans (hshows.clockTicks? hm)
  cases hticks'.symm.trans (hshows'.clockTicks? hn)
  exact hclock

/-- A time of day. -/
def timeLiteral (t : Time) : Expr := .mkConst (.timeOfDay t)

/-- A length of time. -/
def spanLiteral (s : Span) : Expr := .mkConst (.timeSpan s)

/-- Noon is later than two hours and a half. -/
theorem times_compare_by_milliseconds_at_noon :
    ∃ e, plainContext.binary .gt (timeLiteral ⟨43200, 0, by decide⟩)
        (spanLiteral ⟨9000000000000, by decide⟩) = .ok e ∧ e.eval [] = .ok (.bool true) := by
  obtain ⟨e, m, n, he, -, -, -, hticks⟩ := @times_compare_by_milliseconds _ plainContext .gt
    (timeLiteral ⟨43200, 0, by decide⟩) (spanLiteral ⟨9000000000000, by decide⟩) .empty [] _ _
    rfl rfl rfl (by decide) (.inl rfl) ⟨rfl, rfl⟩ ⟨rfl, rfl⟩ rfl rfl
  refine ⟨e, he, hticks (fun n hn => ?_) (fun n hn => ?_) _ _ rfl rfl⟩
  · cases hn
    decide
  · cases hn
    decide

/-- A time of day of one tick is not greater than an empty span when the two are compared, though it has more ticks; and
midnight, of no ticks, is equal to a span of a day. -/
theorem ticks_do_not_decide :
    (∃ e, plainContext.binary .gt (timeLiteral ⟨0, 100, by decide⟩) (spanLiteral ⟨0, by decide⟩) = .ok e ∧
      (Value.timeOfDay ⟨0, 100, by decide⟩).timeTicks? = some 1 ∧
      (Value.timeSpan ⟨0, by decide⟩).timeTicks? = some 0 ∧ e.eval [] = .ok (.bool false)) ∧
    ∃ e, plainContext.binary .eq (timeLiteral .midnight) (spanLiteral ⟨86400000000000, by decide⟩) = .ok e ∧
      (Value.timeOfDay .midnight).timeTicks? = some 0 ∧
      (Value.timeSpan ⟨86400000000000, by decide⟩).timeTicks? = some 864000000000 ∧
      e.eval [] = .ok (.bool true) :=
  ⟨⟨_, rfl, rfl, rfl, rfl⟩, _, rfl, rfl, rfl, rfl⟩

end TypedQuery
