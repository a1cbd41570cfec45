import TypedQuery.Proofs.UnguardedCalls

/-!
# Calls of functions on values of their types

A call that binding accepts has a value of its static type wherever its arguments have values of theirs.
Three tables have to agree for that: the kinds of arguments that a function takes, the values that it is
defined for, and the type of its result. They do for every function but one: a time of day is taken from
what has one, and a time stamp without an offset has one, but there is no conversion for it.

Functions do not take null, so that a call is guarded by its arguments that may be null. The record of the clause
has no guard. Where it is null the call fails, unless another argument is null too and has a guard, or texts are
joined.

* `ArgKind.Takes`: the values of the types that a kind accepts.
* `Builtin.Succeeds`: a function gives a value of its result type for all that it takes.
* `Builtin.fails_of_null`: a function that does not join texts fails on null.
* `Context.Argument`: an argument with its value. `Context.PassesNull`: whether a null reaches a function.
* `Bind.arguments_taken`: what binding accepts as arguments.
* **`accepted_calls_have_typed_values`**: calls that binding accepts.
* `times_of_time_stamps_fail`: the time of day of a time stamp.
-/

namespace TypedQuery

/-! ## Values of a kind -/

namespace ArgKind

/-- What a value of a type that the kind accepts looks like. -/
def Takes (k : ArgKind) (t : HostType) (v : Value) : Prop :=
  match k with
  | .text => ∃ s, v = .string s
  | .integral => ∃ n, v = .int n
  | .numeric => v.isNumber = true ∧ v.hostType? = some t.nonNullable
  | .dated => (∃ d, v = .date d) ∨ (∃ d, v = .dateTime d) ∨ ∃ d, v = .dateTimeOffset d
  | .timed => (∃ d, v = .timeOfDay d) ∨ (∃ d, v = .timeSpan d) ∨ (∃ d, v = .dateTime d) ∨
      ∃ d, v = .dateTimeOffset d

theorem takes_of_accepts {k : ArgKind} {t : HostType} {v : Value} (ht : k.accepts t = true)
    (hv : v.isInstanceOf t = true) : k.Takes t v := by
  cases k with
  | numeric => exact ⟨Value.isNumber_of_isInstanceOf hv ht, Value.hostType?_of_isInstanceOf hv ht⟩
  | text =>
    obtain rfl : t = .string := of_decide_eq_true ht
    exact Value.hasForm_of_isInstanceOf hv
  | integral =>
    obtain ⟨w, hw⟩ := HostType.isIntegral_iff.mp ht
    obtain ⟨n, hn, rfl⟩ := Value.exists_int_of_isInstanceOf hv hw
    exact ⟨_, rfl⟩
  | dated | timed =>
    simp only [accepts, HostType.isDateFamily, HostType.hasTimeOfDay] at ht
    have hform := Value.hasForm_of_isInstanceOf hv
    generalize t.nonNullable = u at ht hform
    cases u <;> first | (cases ht; done) | skip
    all_goals
      obtain ⟨d, rfl⟩ := hform
      simp [Takes]

end ArgKind

/-- Arguments with their values at positions of some kinds: each value that is not null is taken. -/
inductive ArgKind.Taken : List ArgKind → List Expr → List Value → Prop
  | nil {ks : List ArgKind} : Taken ks [] []
  | cons {k : ArgKind} {ks : List ArgKind} {e : Expr} {es : List Expr} {v : Value} {vs : List Value}
    (h : v.isNull = false → k.Takes e.type v) (rest : Taken ks es vs) : Taken (k :: ks) (e :: es) (v :: vs)

/-! ## Functions on what they take -/

namespace ScalarFunction

variable [External] {f : ScalarFunction} {es : List Expr} {v : Value}

/-- The function gives a value of its result type. -/
def Gives (f : ScalarFunction) (es : List Expr) (vs : List Value) : Prop :=
  ∃ w, f.apply vs = .ok w ∧ w.isInstanceOf (f.resultType es) = true

/-- The values of its types for which a function need not have a result: a position or a length below
zero, and a text that is no pattern. -/
def MayFail (f : ScalarFunction) (vs : List Value) : Prop :=
  match f, vs with
  | .substring, _ :: counts => ∃ n : SizedInt, .int n ∈ counts ∧ n.val < 0
  | .matchesPattern, [_, .string pattern] => ∃ reason, External.pattern pattern = .error reason
  | _, _ => False

/-- The values of its types that a function does not convert: a time stamp without an offset has no time of
day, and at a moment whose local date is outside the calendar the program stops. -/
def Misses (f : ScalarFunction) (vs : List Value) : Prop :=
  match f, vs with
  | .timePart, [.dateTime _] => True
  | .datePart, [.dateTimeOffset d] => d.shown? = none
  | _, _ => False

theorem gives_matchesPattern (es : List Expr) {s pattern : String}
    (h : ¬ matchesPattern.MayFail [.string s, .string pattern]) :
    matchesPattern.Gives es [.string s, .string pattern] := by
  cases hp : External.pattern pattern with
  | error reason => exact absurd ⟨reason, hp⟩ h
  | ok found =>
    refine ⟨.bool (found s), ?_, rfl⟩
    simp only [apply, matchPattern, hp]

theorem gives_substring (es : List Expr) (s : String) {start : SizedInt} {count : Option SizedInt}
    (h : ¬ substring.MayFail (.string s :: .int start :: (count.map Value.int).toList)) :
    substring.Gives es (.string s :: .int start :: (count.map Value.int).toList) := by
  have hstart : ¬ start.val < 0 := fun hlt => h ⟨start, List.mem_cons_self, hlt⟩
  cases count with
  | none =>
    refine ⟨.string (Text.slice s start.val.toNat s.length), ?_, rfl⟩
    simp [apply, text?, Value.asInt?, substring?, hstart, orFail]
  | some n =>
    have hcount : ¬ n.val < 0 := fun hlt => h ⟨n, by simp, hlt⟩
    refine ⟨.string (Text.slice s start.val.toNat n.val.toNat), ?_, rfl⟩
    simp [apply, text?, Value.asInt?, substring?, hstart, hcount, orFail]

theorem gives_fractionalSeconds (es : List Expr) {parts : TimeParts} (hv : v.timeParts? = some parts) :
    fractionalSeconds.Gives es [v] := by
  obtain ⟨x, hx⟩ := Value.ofDecimal_ofInt_div parts.nanos (x := 1000000000.0) (by decide +kernel)
  refine ⟨.decimal x, ?_, rfl⟩
  simp [apply, text?, temporal?, hv, hx, orFail]

/-- A number is rounded to one of its own type. -/
theorem gives_rounded {e : Expr} (hf : f.isRounding = true) (hv : ArgKind.numeric.Takes e.type v) :
    f.Gives [e] [v] := by
  obtain ⟨hnumber, htype⟩ := hv
  have hresult : f.resultType [e] = e.type.nonNullable := by cases f <;> first | rfl | cases hf
  have hrounds : ∃ mode, f.apply [v] = f.roundValue mode v := by
    cases f <;> first | exact ⟨_, rfl⟩ | cases hf
  obtain ⟨mode, happly⟩ := hrounds
  rw [Gives, happly, hresult]
  obtain ⟨x, hx, hnan⟩ := Value.asFloat?_of_isNumber hnumber
  have float
      (ht : e.type.nonNullable = .single ∨ e.type.nonNullable = .double ∨ e.type.nonNullable = .decimal)
      (hround : f.roundValue mode v = Value.ofFloat (Number.roundFloat mode x) e.type.nonNullable) :
      ∃ w, f.roundValue mode v = .ok w ∧ w.isInstanceOf e.type.nonNullable = true := by
    rw [hround]
    exact Value.ofFloat_number (Number.isNaN_roundFloat mode hnan) ht
  cases v with
  | int n =>
    refine ⟨.int n, rfl, ?_⟩
    rw [← Option.some.inj htype]
    simp [Value.isInstanceOf, HostType.nonNullable, Value.hostType?]
  | single y | double y | decimal y =>
    cases hx
    have hkind := (Option.some.inj htype).symm
    refine float (by simp [hkind]) ?_
    rw [hkind]
    rfl
  | _ => cases hnumber

theorem gives_datePart (es : List Expr) {t : HostType} (hv : ArgKind.dated.Takes t v)
    (h : ¬ datePart.Misses [v]) : datePart.Gives es [v] := by
  rcases hv with ⟨d, rfl⟩ | ⟨d, rfl⟩ | ⟨d, rfl⟩
  · exact ⟨.date d, rfl, rfl⟩
  · exact ⟨.date d.date, rfl, rfl⟩
  · cases hshown : d.shown? with
    | none => exact absurd hshown h
    | some shown =>
      refine ⟨.date shown.date, ?_, rfl⟩
      change orAbort (d.shown?.map fun d => Value.date d.date) = _
      rw [hshown]
      rfl

theorem gives_timePart (es : List Expr) {t : HostType} (hv : ArgKind.timed.Takes t v)
    (h : ¬ timePart.Misses [v]) : timePart.Gives es [v] := by
  rcases hv with ⟨d, rfl⟩ | ⟨d, rfl⟩ | ⟨d, rfl⟩ | ⟨d, rfl⟩
  · exact ⟨.timeOfDay d, rfl, rfl⟩
  · exact ⟨.timeOfDay (Time.midnight.add d).1, rfl, rfl⟩
  · exact absurd trivial h
  · exact ⟨.timeOfDay d.time, rfl, rfl⟩

end ScalarFunction

namespace Builtin

variable [External]

/-- The function gives a value of its result type for all values that it takes, none of them null, but for
those for which it may fail. -/
def Succeeds (b : Builtin) : Prop :=
  ∀ {es : List Expr} {vs : List Value}, b.takes vs.length = true → ArgKind.Taken b.args es vs →
    (∀ v ∈ vs, v.isNull = false) → ¬ b.function.MayFail vs → ¬ b.function.Misses vs →
      b.function.Gives es vs

section Positions

variable {name : String} {f : ScalarFunction} {k l : ArgKind}

theorem succeeds_of_one (h : ∀ e v, k.Takes e.type v → ¬ f.Misses [v] → f.Gives [e] [v]) :
    Succeeds ⟨name, f, [k], 0⟩ := by
  intro es vs htakes htaken hnull _ hmisses
  cases htaken with
  | nil => cases htakes
  | cons hv rest =>
    cases rest
    exact h _ _ (hv (hnull _ List.mem_cons_self)) hmisses

theorem succeeds_of_two (h : ∀ d e v w, k.Takes d.type v → l.Takes e.type w → ¬ f.MayFail [v, w] →
    f.Gives [d, e] [v, w]) : Succeeds ⟨name, f, [k, l], 0⟩ := by
  intro es vs htakes htaken hnull hmay _
  cases htaken with
  | nil => cases htakes
  | cons hv rest =>
    cases rest with
    | nil => cases htakes
    | cons hw rest =>
      cases rest
      exact h _ _ _ _ (hv (hnull _ (by simp))) (hw (hnull _ (by simp))) hmay

end Positions

theorem succeeds_substring (name : String) :
    Succeeds ⟨name, .substring, [.text, .integral, .integral], 1⟩ := by
  intro es vs htakes htaken hnull hmay _
  cases htaken with
  | nil => cases htakes
  | cons hv rest =>
    obtain ⟨s, rfl⟩ := hv (hnull _ (by simp))
    cases rest with
    | nil => cases htakes
    | cons hstart rest =>
      obtain ⟨start, rfl⟩ := hstart (hnull _ (by simp))
      cases rest with
      | nil => exact @ScalarFunction.gives_substring _ _ s start none hmay
      | cons hcount rest =>
        obtain ⟨count, rfl⟩ := hcount (hnull _ (by simp))
        cases rest
        exact @ScalarFunction.gives_substring _ _ s start (some count) hmay

/-- **Every function succeeds** on what it takes. -/
theorem succeeds : ∀ b ∈ all, b.Succeeds := by
  have text {name : String} {f : ScalarFunction} (h : ∀ es s, f.Gives es [.string s]) :
      Succeeds ⟨name, f, [.text], 0⟩ := by
    refine succeeds_of_one fun e v hv _ => ?_
    obtain ⟨s, rfl⟩ := hv
    exact h _ s
  have texts {name : String} {f : ScalarFunction} (h : ∀ es s t, ¬ f.MayFail [.string s, .string t] →
      f.Gives es [.string s, .string t]) : Succeeds ⟨name, f, [.text, .text], 0⟩ := by
    refine succeeds_of_two fun d e v w hv hw hmay => ?_
    obtain ⟨s, rfl⟩ := hv
    obtain ⟨t, rfl⟩ := hw
    exact h _ s t hmay
  have dated {name : String} {f : ScalarFunction} (h : ∀ e v d, v.dayPart? = some d → f.Gives [e] [v]) :
      Succeeds ⟨name, f, [.dated], 0⟩ := by
    refine succeeds_of_one fun e v hv _ => ?_
    rcases hv with ⟨d, rfl⟩ | ⟨d, rfl⟩ | ⟨d, rfl⟩ <;> exact h e _ _ rfl
  have timed {name : String} {f : ScalarFunction} (h : ∀ e v p, v.timeParts? = some p → f.Gives [e] [v]) :
      Succeeds ⟨name, f, [.timed], 0⟩ := by
    refine succeeds_of_one fun e v hv _ => ?_
    rcases hv with ⟨d, rfl⟩ | ⟨d, rfl⟩ | ⟨d, rfl⟩ | ⟨d, rfl⟩ <;> exact h e _ _ rfl
  have rounded {name : String} {f : ScalarFunction} (hf : f.isRounding = true) :
      Succeeds ⟨name, f, [.numeric], 0⟩ :=
    succeeds_of_one fun _ _ hv _ => ScalarFunction.gives_rounded hf hv
  simp only [all, List.forall_mem_cons]
  -- one line for each row of the table, in its order
  refine ⟨texts fun _ _ _ _ => ⟨_, rfl, rfl⟩,
    texts fun _ _ _ _ => ⟨_, rfl, rfl⟩,
    texts fun _ _ _ _ => ⟨_, rfl, rfl⟩,
    text fun _ _ => ⟨_, rfl, rfl⟩,
    texts (f := .indexOf) fun _ s t _ => ⟨_, ScalarFunction.positionOf_eq s t, rfl⟩,
    succeeds_substring _,
    text fun _ _ => ⟨_, rfl, rfl⟩,
    text fun _ _ => ⟨_, rfl, rfl⟩,
    text fun _ _ => ⟨_, rfl, rfl⟩,
    texts fun _ _ _ _ => ⟨_, rfl, rfl⟩,
    texts fun es _ _ h => ScalarFunction.gives_matchesPattern es h,
    dated fun _ _ _ h => ⟨_, (Bind.TimeKey.apply_dateParts h).1, rfl⟩,
    dated fun _ _ _ h => ⟨_, (Bind.TimeKey.apply_dateParts h).2.1, rfl⟩,
    dated fun _ _ _ h => ⟨_, (Bind.TimeKey.apply_dateParts h).2.2, rfl⟩,
    timed fun _ _ _ h => ⟨_, (Bind.TimeKey.apply_timeParts h).1, rfl⟩,
    timed fun _ _ _ h => ⟨_, (Bind.TimeKey.apply_timeParts h).2.1, rfl⟩,
    timed fun _ _ _ h => ⟨_, (Bind.TimeKey.apply_timeParts h).2.2.1, rfl⟩,
    timed fun _ _ _ h => ScalarFunction.gives_fractionalSeconds _ h,
    succeeds_of_one fun _ _ hv h => ScalarFunction.gives_datePart _ hv h,
    succeeds_of_one fun _ _ hv h => ScalarFunction.gives_timePart _ hv h,
    rounded rfl, rounded rfl, rounded rfl, by simp⟩

section Null

variable {name : String} {f : ScalarFunction} {k l : ArgKind}

omit [External] in
theorem length_of_takes {b : Builtin} {count : Nat} (hoptional : b.optional = 0) (htakes : b.takes count = true) :
    count = b.args.length := by
  obtain ⟨hle, hge⟩ := Bool.and_eq_true_iff.mp htakes
  rw [required, hoptional] at hle
  exact Nat.le_antisymm (of_decide_eq_true hge) (of_decide_eq_true hle)

/-- The function fails where one of the values that it takes is null. -/
def FailsOnNull (b : Builtin) : Prop :=
  ∀ {vs : List Value}, b.takes vs.length = true → (∃ v ∈ vs, v.isNull = true) → ∃ err, b.function.apply vs = .error err

theorem failsOnNull_of_one (h : ∃ err, f.apply [.null] = .error err) : FailsOnNull ⟨name, f, [k], 0⟩ := by
  rintro vs htakes ⟨v, hv, hnull⟩
  obtain ⟨w, rfl⟩ := List.length_eq_one_iff.mp (length_of_takes rfl htakes)
  obtain rfl := List.mem_singleton.mp hv
  obtain rfl := Value.eq_null hnull
  exact h

theorem failsOnNull_of_two
    (h : ∀ v, (∃ err, f.apply [.null, v] = .error err) ∧ ∃ err, f.apply [v, .null] = .error err) :
    FailsOnNull ⟨name, f, [k, l], 0⟩ := by
  rintro vs htakes ⟨v, hv, hnull⟩
  obtain ⟨a, b, rfl⟩ := List.length_eq_two.mp (length_of_takes rfl htakes)
  obtain rfl := Value.eq_null hnull
  obtain rfl | hv := List.mem_cons.mp hv
  · exact (h b).1
  · obtain rfl := List.mem_singleton.mp hv
    exact (h a).2

theorem failsOnNull_substring (name : String) : FailsOnNull ⟨name, .substring, [.text, .integral, .integral], 1⟩ := by
  have fails {vs : List Value} (h : ScalarFunction.substring.text? vs = none) :
      ∃ err, ScalarFunction.substring.apply vs = .error err := by
    simp [ScalarFunction.apply, h, ScalarFunction.temporal?, ScalarFunction.comparison?, orFail, EvalError.fail]
  rintro vs htakes ⟨v, hv, hnull⟩
  obtain rfl := Value.eq_null hnull
  refine fails ?_
  rcases vs with _ | ⟨text, _ | ⟨start, _ | ⟨count, _ | ⟨_, rest⟩⟩⟩⟩
  · cases hv
  · simp [takes, required] at htakes
  · cases text <;> cases start <;> first | rfl | simp at hv
  · cases text <;> cases start <;> first | rfl | skip
    all_goals cases count <;> first | rfl | simp at hv
  · have hlength := of_decide_eq_true (Bool.and_eq_true_iff.mp htakes).2
    simp only [List.length_cons, List.length_nil] at hlength
    omega

/-- **Every function fails on null**, but for the one that joins texts. -/
theorem fails_of_null : ∀ b ∈ all, b.function ≠ .concat → b.FailsOnNull := by
  have texts {name : String} {f : ScalarFunction} (h : ∀ v, (∃ err, f.apply [.null, v] = .error err) ∧
      ∃ err, f.apply [v, .null] = .error err) : f ≠ .concat → FailsOnNull ⟨name, f, [.text, .text], 0⟩ :=
    fun _ => failsOnNull_of_two h
  have one {name : String} {f : ScalarFunction} {k : ArgKind} (h : ∃ err, f.apply [.null] = .error err) :
      f ≠ .concat → FailsOnNull ⟨name, f, [k], 0⟩ := fun _ => failsOnNull_of_one h
  simp only [all, List.forall_mem_cons]
  -- one line for each row of the table, in its order
  refine ⟨texts fun v => by cases v <;> exact ⟨⟨_, rfl⟩, _, rfl⟩,
    texts fun v => by cases v <;> exact ⟨⟨_, rfl⟩, _, rfl⟩,
    texts fun v => by cases v <;> exact ⟨⟨_, rfl⟩, _, rfl⟩,
    one ⟨_, rfl⟩,
    texts fun v => by cases v <;> exact ⟨⟨_, rfl⟩, _, rfl⟩,
    fun _ => failsOnNull_substring _,
    one ⟨_, rfl⟩,
    one ⟨_, rfl⟩,
    one ⟨_, rfl⟩,
    fun h => absurd rfl h,
    texts fun v => by cases v <;> exact ⟨⟨_, rfl⟩, _, rfl⟩,
    one ⟨_, rfl⟩, one ⟨_, rfl⟩, one ⟨_, rfl⟩,
    one ⟨_, rfl⟩, one ⟨_, rfl⟩, one ⟨_, rfl⟩, one ⟨_, rfl⟩,
    one ⟨_, rfl⟩,
    one ⟨_, rfl⟩,
    one ⟨_, rfl⟩, one ⟨_, rfl⟩, one ⟨_, rfl⟩, by simp⟩

end Null

/-- Texts are joined whether or not some are null. -/
theorem concat_gives {b : Builtin} (hb : b ∈ all) (hconcat : b.function = .concat) {vs : List Value}
    (htakes : b.takes vs.length = true) (es : List Expr) :
    ∃ w, b.function.apply vs = .ok w ∧ w.isInstanceOf (b.function.resultType es) = true ∧ w.isPlain = true := by
  have htwo : ∀ b ∈ all, b.function = .concat → b.optional = 0 ∧ b.args.length = 2 := by decide
  obtain ⟨hoptional, hargs⟩ := htwo b hb hconcat
  obtain ⟨v, w, rfl⟩ := List.length_eq_two.mp ((length_of_takes hoptional htakes).trans hargs)
  rw [hconcat]
  exact ⟨_, rfl, rfl, rfl⟩

end Builtin

/-! ## Arguments and their guards -/

/-- An argument with its value: one of its type, null only with null propagation. -/
structure Context.Argument [External] (ctx : Context) (s : Schema) (env : Env) (e : Expr) (v : Value) :
    Prop where
  eval : e.eval env = .ok v
  admits : s.admits e.type v = true
  propagated : v.isNull = true → ctx.settings.nullPropagation = true

/-- No guard asks for the null ones among some arguments: they are the record of the clause. -/
def Context.BareNulls (ctx : Context) (es : List Expr) (vs : List Value) : Prop :=
  List.Forall₂ (fun e v => v.isNull = true → ctx.isCurrent e = true) es vs

namespace Context

variable [External] {ctx : Context} {s : Schema} {env : Env} {e : Expr} {es : List Expr} {v : Value}
    {vs : List Value}

/-- A null argument has a guard, but for the record of the clause. -/
theorem Argument.needsGuard (h : ctx.Argument s env e v) (hnull : v.isNull = true)
    (hcurrent : ctx.isCurrent e = false) :
    ctx.needsGuard e = true := by
  simp [Context.needsGuard, h.propagated hnull, Schema.isNullable_of_admits h.admits hnull, hcurrent,
    Expr.isNonNullConst_of_eval h.eval hnull]

theorem Argument.mkNull (hpropagation : ctx.settings.nullPropagation = true) (t : HostType) :
    ctx.Argument s env (.mkNull t) .null :=
  ⟨rfl, t.isNullable_toNullable, fun _ => hpropagation⟩

section Guarded

variable {x : Expr} {w : Value} (hargs : List.Forall₂ (ctx.Argument s env) es vs)
include hargs

/-- Where no guard asks for a null argument, none finds one. -/
theorem BareNulls.sources (h : ctx.BareNulls es vs) :
    ∀ a ∈ es.filter ctx.needsGuard, ∃ v, a.eval env = .ok v ∧ v.isNull = false := by
  intro a ha
  obtain ⟨ha, hguard⟩ := List.mem_filter.mp ha
  obtain ⟨v, -, harg, hcurrent⟩ := Outcome.forall₂_mem (Outcome.forall₂_and hargs h) ha
  refine ⟨v, harg.eval, ?_⟩
  by_contra hnull
  simp [Context.needsGuard, hcurrent (by simpa using hnull)] at hguard

/-- Where no guard asks for a null argument, what is guarded keeps its value. -/
theorem BareNulls.guardCall (h : ctx.BareNulls es vs) (hx : x.eval env = .ok w) (hadmits : s.admits x.type w = true) :
    (Bind.guardCall (es.filter ctx.needsGuard) x).eval env = .ok w ∧
      s.admits (Bind.guardCall (es.filter ctx.needsGuard) x).type w = true := by
  have hvalues := h.sources hargs
  generalize es.filter ctx.needsGuard = sources at hvalues
  cases sources with
  | nil => exact ⟨hx, hadmits⟩
  | cons a rest =>
    obtain ⟨hconvert, htype⟩ :
        w.convert x.type.toNullable = .ok w ∧ s.admits x.type.toNullable w = true :=
      Schema.convert_of_admits hadmits (HostType.nonNullable_toNullable _).symm fun _ =>
        HostType.isNullable_toNullable _
    refine ⟨?_, by rwa [Expr.type_guardCall]⟩
    rw [Expr.eval_guardCall, Expr.someNull_of_nonNull hvalues, Outcome.ok_bind, if_neg Bool.false_ne_true]
    rw [Expr.eval_convertTo_of_eval hx fun _ => hconvert, hconvert]

/-- Where no guard asks for a null argument, what is guarded fails as it does on its own. -/
theorem BareNulls.guardCall_of_error {err : Error} (h : ctx.BareNulls es vs) (hx : x.eval env = .error err) :
    (Bind.guardCall (es.filter ctx.needsGuard) x).eval env = .error err := by
  have hvalues := h.sources hargs
  generalize es.filter ctx.needsGuard = sources at hvalues
  cases sources with
  | nil => exact hx
  | cons a rest =>
    rw [Expr.eval_guardCall, Expr.someNull_of_nonNull hvalues, Outcome.ok_bind, if_neg Bool.false_ne_true]
    exact Expr.eval_convertTo_of_error hx _

/-- Where a guard asks for a null argument, what is guarded is null. -/
theorem guardCall_of_notBare (h : ¬ ctx.BareNulls es vs) :
    (Bind.guardCall (es.filter ctx.needsGuard) x).eval env = .ok .null ∧
      (Bind.guardCall (es.filter ctx.needsGuard) x).type.isNullable = true := by
  obtain ⟨a, v, ha, harg, hnull, hcurrent⟩ : ∃ a v, a ∈ es ∧ ctx.Argument s env a v ∧ v.isNull = true ∧
      ctx.isCurrent a = false := by
    by_contra hnone
    refine h (List.forall₂_iff_zip.mpr ⟨hargs.length_eq, fun {a v} hmem hnull => ?_⟩)
    by_contra hcurrent
    exact hnone ⟨a, v, (List.of_mem_zip hmem).1, (List.forall₂_iff_zip.mp hargs).2 hmem, hnull, by simpa using hcurrent⟩
  have hmem : a ∈ es.filter ctx.needsGuard := List.mem_filter.mpr ⟨ha, harg.needsGuard hnull hcurrent⟩
  have hvalues : ∀ a ∈ es.filter ctx.needsGuard, ∃ v, a.eval env = .ok v := by
    intro a ha
    obtain ⟨v, -, harg⟩ := Outcome.forall₂_mem hargs (List.mem_filter.mp ha).1
    exact ⟨v, harg.eval⟩
  have hsome := Expr.someNull_of_null hvalues hmem harg.eval hnull
  generalize es.filter ctx.needsGuard = sources at hmem hsome
  cases sources with
  | nil => cases hmem
  | cons b rest =>
    rw [Expr.eval_guardCall, hsome, Expr.type_guardCall]
    exact ⟨rfl, HostType.isNullable_toNullable _⟩

/-- **A guarded call has a value of its type**: null where a guard asks for a null argument, and else what the
function gives. -/
theorem exists_guardCall {f : ScalarFunction}
    (hgives : ctx.BareNulls es vs →
      ∃ w, f.apply vs = .ok w ∧ w.isInstanceOf (f.resultType es) = true ∧ w.isPlain = true) :
    ∃ w, (Bind.guardCall (es.filter ctx.needsGuard) (.mkScalar f es)).eval env = .ok w ∧
      s.admits (Bind.guardCall (es.filter ctx.needsGuard) (.mkScalar f es)).type w = true := by
  by_cases hbare : ctx.BareNulls es vs
  · obtain ⟨w, hw, hinstance, hplain⟩ := hgives hbare
    have happly : (Expr.mkScalar f es).eval env = .ok w := by
      rw [Expr.eval_mkScalar, Outcome.mapM_of_forall₂ (hargs.imp fun _ _ h => h.eval)]
      exact hw
    refine ⟨w, hbare.guardCall hargs happly ?_⟩
    rw [Schema.admits_of_isPlain hplain]
    exact hinstance
  · exact ⟨.null, guardCall_of_notBare hargs hbare⟩

end Guarded

end Context

/-! ## Arguments as they are bound -/

/-- Nodes that are bound in turn, each in the context that the one before it leaves. -/
inductive Bind.InTurn (sub : Node → BindM Expr) : List Node → Context → List Expr → Context → Prop
  | nil {c : Context} : InTurn sub [] c [] c
  | cons {node : Node} {nodes : List Node} {c c₁ c₂ : Context} {x : Expr} {xs : List Expr}
    (h : sub node c = (.ok x, c₁)) (rest : InTurn sub nodes c₁ xs c₂) :
    InTurn sub (node :: nodes) c (x :: xs) c₂

namespace Bind

variable {sub : Node → BindM Expr} {ctx c c' : Context} {s : Schema} {env : Env} {x e : Expr} {v : Value}

theorem InTurn.length {nodes : List Node} {xs : List Expr} (h : InTurn sub nodes c xs c') :
    xs.length = nodes.length := by
  induction h with
  | nil => rfl
  | cons _ _ ih => rw [List.length_cons, List.length_cons, ih]

/-- The arguments of a call are bound as nodes on their own are. -/
theorem InTurn.bind {levels : Nat} {nodes : List Node} {xs : List Expr}
    (h : InTurn (Node.bindWithin levels) nodes c xs c') (hlevels : c.levelsLeft = levels) :
    InTurn Node.bind nodes c xs c' := by
  induction h with
  | nil => exact .nil
  | @cons node _ c _ _ _ _ hnode _ ih =>
    have hframe := (Node.bindWithin_keeps levels node).frame hnode
    refine .cons ?_ (ih ?_)
    · rw [Node.bind, hlevels]
      exact hnode
    · rw [Context.levelsLeft, hframe.settings, hframe.depth]
      exact hlevels

theorem InTurn.frame (hkeeps : ∀ n, BindM.Keeps (sub n)) {nodes : List Node} {xs : List Expr}
    (h : InTurn sub nodes c xs c') : c.Frame c' := by
  induction h with
  | nil => exact .refl _
  | cons hnode _ ih => exact ((hkeeps _).frame hnode).trans ih

/-- An argument made to fit keeps its value, which is one that its position takes. It stays the record of the clause
if it is. -/
theorem coerce_argument [External] {function : String} {k : ArgKind} (h : ctx.Argument s env x v)
    (hobject : x.type.isObject = false) (he : coerce function x k = .ok e) :
    ctx.Argument s env e v ∧ (v.isNull = false → k.Takes e.type v) ∧
      (e = x ∨ (ctx.isCurrent x = false ∧ ctx.isCurrent e = false)) := by
  unfold coerce at he
  rw [hobject, if_neg Bool.false_ne_true] at he
  split_ifs at he with hnull haccepts
  · cases he
    have hisNull : v.isNull = true := by
      by_contra hv
      rw [Expr.isNullConst_of_eval h.eval (by simpa using hv)] at hnull
      cases hnull
    obtain rfl := Value.eq_null hisNull
    have hcurrent : ctx.isCurrent x = false := by cases x <;> first | rfl | cases hnull
    exact ⟨.mkNull (h.propagated rfl) _, nofun, .inr ⟨hcurrent, rfl⟩⟩
  · cases he
    exact ⟨h, fun hv => ArgKind.takes_of_accepts haccepts (Schema.isInstanceOf_of_admits h.admits hv), .inl rfl⟩

/-- An integer as a float is a number, null where it was. -/
theorem integralToDouble_argument [External] (h : ctx.Argument s env e v)
    (hv : v.isNull = false → ArgKind.numeric.Takes e.type v) :
    ∃ w, ctx.Argument s env (integralToDouble e) w ∧
      (w.isNull = false → ArgKind.numeric.Takes (integralToDouble e).type w) ∧ w.isNull = v.isNull := by
  unfold integralToDouble
  split_ifs with hint
  · have hvalue := HostType.isValueType_of_isIntegral hint
    have hkind : (HostType.double.nullableLike e.type).nonNullable = .double :=
      HostType.nonNullable_nullableLike _ _
    cases hnull : v.isNull with
    | true =>
      obtain rfl := Value.eq_null hnull
      have hnullable := HostType.isNullable_nullableLike .double hvalue
        (Schema.isNullable_of_admits h.admits rfl)
      refine ⟨.null, ⟨?_, hnullable, fun _ => h.propagated rfl⟩, nofun, rfl⟩
      rw [Expr.eval, h.eval, Outcome.ok_bind]
      unfold Value.convert
      exact if_pos hnullable
    | false =>
      obtain ⟨hnumber, -⟩ := hv hnull
      obtain ⟨w, hw, hinstance⟩ := Value.convert_float hnumber (.inr (.inl hkind))
      have hdouble : (HostType.double.nullableLike e.type).isNumeric = true := by
        unfold HostType.isNumeric
        rw [hkind]
      have hwnumber := Value.isNumber_of_isInstanceOf hinstance hdouble
      have hplain : w.isPlain = true := by cases w <;> first | rfl | cases hwnumber
      have hwnull := Value.isNull_of_isPlain hplain
      refine ⟨w, ⟨?_, ?_, fun h => by rw [hwnull] at h; cases h⟩, fun _ =>
        ⟨hwnumber, Value.hostType?_of_isInstanceOf hinstance hdouble⟩, hwnull⟩
      · rw [Expr.eval, h.eval, Outcome.ok_bind, hw]
      · rw [Schema.admits_of_isPlain hplain]
        exact hinstance
  · exact ⟨v, h, hv, rfl⟩

/-- **What binding accepts as arguments**: the nodes are bound in turn, and what values of their types they
have, if none of the types is that of any value, the arguments have too, and their positions take them. -/
theorem arguments_taken [External] {function : String} {nodes : List Node} {ks : List ArgKind}
    {es : List Expr}
    (h : arguments sub function nodes ks c = (.ok es, c')) (hlength : nodes.length ≤ ks.length) :
    ∃ xs, InTurn sub nodes c xs c' ∧ ∀ {ctx : Context} {s : Schema} {env : Env} {vs : List Value},
      (∀ x ∈ xs, x.type.isObject = false) → List.Forall₂ (ctx.Argument s env) xs vs →
        List.Forall₂ (ctx.Argument s env) es vs ∧ ArgKind.Taken ks es vs ∧
          List.Forall₂ (fun x e => e = x ∨ (ctx.isCurrent x = false ∧ ctx.isCurrent e = false)) xs es := by
  induction nodes generalizing ks c es with
  | nil =>
    cases h
    refine ⟨[], .nil, fun _ hvs => ?_⟩
    cases hvs
    exact ⟨.nil, .nil, .nil⟩
  | cons node nodes ih =>
    cases ks with
    | nil => cases hlength
    | cons k ks =>
      rw [arguments] at h
      obtain ⟨x, c₁, hx, h⟩ := BindM.exists_of_bind_eq_ok h
      obtain ⟨e, c₂, he, h⟩ := BindM.exists_of_bind_eq_ok h
      obtain ⟨rest, c₃, hrest, h⟩ := BindM.exists_of_bind_eq_ok h
      cases h
      obtain ⟨hcoerce, rfl⟩ := Prod.mk.inj he
      obtain ⟨xs, hxs, htaken⟩ := ih hrest (Nat.le_of_succ_le_succ hlength)
      refine ⟨x :: xs, .cons hx hxs, fun hobject hvs => ?_⟩
      obtain ⟨hhead, htail⟩ := List.forall_mem_cons.mp hobject
      cases hvs with
      | cons hv hvs =>
        obtain ⟨hargument, htakes, hsame⟩ := coerce_argument hv hhead hcoerce
        obtain ⟨harguments, hrest, hrecords⟩ := htaken htail hvs
        exact ⟨.cons hargument harguments, .cons htakes hrest, .cons hsame hrecords⟩

/-- Numbers as floats are numbers, null where they were. -/
theorem arguments_doubled [External] {ks : List ArgKind} {es : List Expr} {vs : List Value}
    (hks : ∀ k ∈ ks, k = .numeric) (hvs : List.Forall₂ (ctx.Argument s env) es vs)
    (htaken : ArgKind.Taken ks es vs) :
    ∃ ws, List.Forall₂ (ctx.Argument s env) (es.map integralToDouble) ws ∧
      ArgKind.Taken ks (es.map integralToDouble) ws ∧ List.Forall₂ (fun v w => w.isNull = v.isNull) vs ws := by
  induction htaken with
  | nil => exact ⟨[], .nil, .nil, .nil⟩
  | cons htakes _ ih =>
    obtain ⟨rfl, hrest⟩ := List.forall_mem_cons.mp hks
    cases hvs with
    | cons hv hvs =>
      obtain ⟨w, hw, htakes, hnull⟩ := integralToDouble_argument hv htakes
      obtain ⟨ws, hws, htaken, hnulls⟩ := ih hrest hvs
      exact ⟨w :: ws, .cons hw hws, .cons htakes htaken, .cons hnull hnulls⟩

/-- What a call of a function is bound to. -/
theorem call_eq_ok {name : String} {args : List Node}
    (hname : Text.asciiLower name ≠ "cast" ∧ Text.asciiLower name ≠ "isof")
    (h : call sub name args c = (.ok e, c')) :
    ∃ b es, Builtin.ofName? (Text.asciiLower name) = some b ∧ b.takes args.length = true ∧
      arguments sub name args b.args c = (.ok es, c') ∧
      e = guardCall ((if b.isRounding then es.map integralToDouble else es).filter c'.needsGuard)
        (.mkScalar b.function (if b.isRounding then es.map integralToDouble else es)) := by
  unfold call at h
  rw [if_neg (not_or.mpr hname)] at h
  cases hb : Builtin.ofName? (Text.asciiLower name) with
  | none =>
    rw [hb] at h
    cases h
  | some b =>
    rw [hb] at h
    change builtinCall sub b name args c = _ at h
    unfold builtinCall at h
    by_cases htakes : b.takes args.length = true
    · rw [if_pos htakes] at h
      obtain ⟨es, c₁, hes, h⟩ := BindM.exists_of_bind_eq_ok h
      cases h
      exact ⟨b, es, rfl, htakes, hes, rfl⟩
    · rw [if_neg htakes] at h
      cases h

section Guarded

variable [External] {b : Builtin} (hb : b ∈ Builtin.all) {es : List Expr} {vs : List Value}
  (hargs : List.Forall₂ (ctx.Argument s env) es vs)
include hb hargs

/-- A function on arguments that fit it has a value of its type, unless a null reaches it. -/
theorem guardCall_typed (htaken : ArgKind.Taken b.args es vs) (htakes : b.takes vs.length = true)
    (hmay : ¬ b.function.MayFail vs) (hmisses : ¬ b.function.Misses vs)
    (hconcat : (∃ v ∈ vs, v.isNull = true) → ctx.BareNulls es vs → b.function = .concat) :
    ∃ w, (guardCall (es.filter ctx.needsGuard) (.mkScalar b.function es)).eval env = .ok w ∧
      s.admits (guardCall (es.filter ctx.needsGuard) (.mkScalar b.function es)).type w = true := by
  refine Context.exists_guardCall hargs fun hbare => ?_
  by_cases hnull : ∀ v ∈ vs, v.isNull = false
  · obtain ⟨w, hw, hinstance⟩ := Builtin.succeeds b hb htakes htaken hnull hmay hmisses
    have hsafe := ScalarFunction.apply_nullSafe (f := b.function) hnull
    rw [hw] at hsafe
    exact ⟨w, hw, hinstance, hsafe.1⟩
  · push Not at hnull
    obtain ⟨v, hv, hisNull⟩ := hnull
    exact Builtin.concat_gives hb (hconcat ⟨v, hv, by simpa using hisNull⟩ hbare) htakes es

/-- A function on arguments that fit it fails where a null reaches it. -/
theorem guardCall_fails (htakes : b.takes vs.length = true) (hfunction : b.function ≠ .concat)
    (hnull : ∃ v ∈ vs, v.isNull = true) (hbare : ctx.BareNulls es vs) :
    ∃ err, (guardCall (es.filter ctx.needsGuard) (.mkScalar b.function es)).eval env = .error err := by
  obtain ⟨err, herr⟩ := Builtin.fails_of_null b hb hfunction htakes hnull
  refine ⟨err, hbare.guardCall_of_error hargs ?_⟩
  rw [Expr.eval_mkScalar, Outcome.mapM_of_forall₂ (hargs.imp fun _ _ h => h.eval)]
  exact herr

end Guarded

/-- The arguments of a function as it takes them: floats where it rounds. -/
theorem arguments_fitted [External] {b : Builtin} (hb : b ∈ Builtin.all) {es : List Expr} {vs : List Value}
    (hvs : List.Forall₂ (ctx.Argument s env) es vs) (htaken : ArgKind.Taken b.args es vs) :
    ∃ ws, List.Forall₂ (ctx.Argument s env) (if b.isRounding then es.map integralToDouble else es) ws ∧
      ArgKind.Taken b.args (if b.isRounding then es.map integralToDouble else es) ws ∧
      List.Forall₂ (fun v w => w.isNull = v.isNull) vs ws ∧
      (b.function.MayFail ws → b.function.MayFail vs) ∧ (b.function.Misses ws → b.function.Misses vs) := by
  cases hround : b.isRounding with
  | false => exact ⟨vs, hvs, htaken, List.forall₂_same.mpr fun _ _ => rfl, id, id⟩
  | true =>
    obtain ⟨ws, hws, htaken, hnulls⟩ := arguments_doubled (Builtin.args_of_isRounding b hb hround) hvs htaken
    refine ⟨ws, hws, htaken, hnulls, ?_⟩
    -- a function that rounds has a result for all numbers
    unfold Builtin.isRounding at hround
    unfold ScalarFunction.MayFail ScalarFunction.Misses
    split at hround <;> first | (cases hround; done) | (rename_i hf; rw [hf]; exact ⟨False.elim, False.elim⟩)

end Bind

namespace Context

/-- Whether no guard asks for an argument of a function that is null: it is the record of the clause, and is taken as
it is. -/
def isBare (ctx : Context) (b : Builtin) (x : Expr) : Bool :=
  ctx.isCurrent x && !(b.isRounding && x.type.isIntegral)

/-- **Whether a null reaches a function** that does not take it: some argument is null, and no guard asks for any that
is. -/
structure PassesNull (ctx : Context) (b : Builtin) (xs : List Expr) (vs : List Value) : Prop where
  function : b.function ≠ .concat
  null : ∃ v ∈ vs, v.isNull = true
  bare : List.Forall₂ (fun x v => v.isNull = true → ctx.isBare b x = true) xs vs

variable {ctx c : Context} {b : Builtin} {x e : Expr} {xs es : List Expr} {vs ws : List Value}

theorem passesNull_congr (h : ∀ x, c.isCurrent x = ctx.isCurrent x) :
    ctx.PassesNull b xs vs ↔ c.PassesNull b xs vs := by
  have hbare : c.isBare b = ctx.isBare b := by
    funext x
    rw [isBare, isBare, h]
  constructor <;> rintro ⟨hfunction, hnull, hpasses⟩
  · exact ⟨hfunction, hnull, hbare ▸ hpasses⟩
  · exact ⟨hfunction, hnull, hbare ▸ hpasses⟩

/-- An argument that is made to fit has a guard if it had one. -/
theorem isCurrent_fitted (h : e = x ∨ (ctx.isCurrent x = false ∧ ctx.isCurrent e = false)) :
    ctx.isCurrent (if b.isRounding then Bind.integralToDouble e else e) = ctx.isBare b x := by
  have hdouble (e : Expr) : ctx.isCurrent (Bind.integralToDouble e) = (ctx.isCurrent e && !e.type.isIntegral) := by
    unfold Bind.integralToDouble
    split_ifs with hint
    · rw [hint, Bool.not_true, Bool.and_false]
      rfl
    · rw [Bool.eq_false_iff.mpr hint, Bool.not_false, Bool.and_true]
  unfold isBare
  cases b.isRounding with
  | false =>
    rw [if_neg Bool.false_ne_true, Bool.false_and, Bool.not_false, Bool.and_true]
    rcases h with rfl | ⟨hx, he⟩
    · rfl
    · rw [hx, he]
  | true =>
    rw [if_pos rfl, hdouble, Bool.true_and]
    rcases h with rfl | ⟨hx, he⟩
    · rfl
    · rw [hx, he, Bool.false_and, Bool.false_and]

/-- The null arguments of a call are those of its function. -/
theorem bareNulls_iff (hes : List.Forall₂ (fun x e => ctx.isCurrent e = ctx.isBare b x) xs es)
    (hws : List.Forall₂ (fun v w => w.isNull = v.isNull) vs ws) :
    ctx.BareNulls es ws ↔ List.Forall₂ (fun x v => v.isNull = true → ctx.isBare b x = true) xs vs := by
  unfold BareNulls
  induction hes generalizing vs ws with
  | nil => cases hws <;> simp
  | cons he _ ih =>
    cases hws with
    | nil => simp
    | cons hw hws => rw [List.forall₂_cons, List.forall₂_cons, he, hw, ih hws]

theorem exists_null_iff (hws : List.Forall₂ (fun v w => w.isNull = v.isNull) vs ws) :
    (∃ w ∈ ws, w.isNull = true) ↔ ∃ v ∈ vs, v.isNull = true := by
  induction hws with
  | nil => simp
  | cons hw _ ih => simp only [List.exists_mem_cons_iff, hw, ih]

end Context

namespace Bind

variable {sub : Node → BindM Expr} {c c' : Context} {e : Expr}

/-- A call that binding accepts, in the context in which its arguments have been bound. -/
theorem exists_call [External] {name : String} {args : List Node} (hname : Text.asciiLower name ≠ "cast" ∧
    Text.asciiLower name ≠ "isof") (h : call sub name args c = (.ok e, c')) :
    ∃ b xs, Builtin.ofName? (Text.asciiLower name) = some b ∧ InTurn sub args c xs c' ∧
      ∀ {s : Schema} {env : Env} {vs : List Value}, (∀ x ∈ xs, x.type.isObject = false) →
        List.Forall₂ (c'.Argument s env) xs vs →
        (c'.PassesNull b xs vs → ∃ err, e.eval env = .error err) ∧
        (¬ c'.PassesNull b xs vs → ¬ b.function.MayFail vs → ¬ b.function.Misses vs →
          ∃ v, e.eval env = .ok v ∧ s.admits e.type v = true) := by
  obtain ⟨b, es, hb, htakes, hes, rfl⟩ := call_eq_ok hname h
  have hmem : b ∈ Builtin.all := List.mem_of_find?_eq_some hb
  have hlength : args.length ≤ b.args.length := of_decide_eq_true (Bool.and_eq_true_iff.mp htakes).2
  obtain ⟨xs, hxs, htaken⟩ := arguments_taken hes hlength
  refine ⟨b, xs, hb, hxs, fun hobject hvs => ?_⟩
  obtain ⟨harguments, htaken, hsame⟩ := htaken hobject hvs
  obtain ⟨ws, hws, htaken, hnulls, hmay, hmisses⟩ := arguments_fitted hmem harguments htaken
  rw [← hxs.length, hvs.length_eq, hnulls.length_eq] at htakes
  have hcurrent : List.Forall₂ (fun x e => c'.isCurrent e = c'.isBare b x) xs
      (if b.isRounding then es.map integralToDouble else es) := by
    have hpointwise := hsame.imp fun _ _ => Context.isCurrent_fitted (b := b)
    cases hround : b.isRounding with
    | false => simpa [hround] using hpointwise
    | true => simpa [hround, List.forall₂_map_right_iff] using hpointwise
  constructor
  · rintro ⟨hfunction, hnull, hbare⟩
    exact guardCall_fails hmem hws htakes hfunction ((Context.exists_null_iff hnulls).mpr hnull)
      ((Context.bareNulls_iff hcurrent hnulls).mpr hbare)
  · intro hpasses hmay' hmisses'
    refine guardCall_typed hmem hws htaken htakes (mt hmay hmay') (mt hmisses hmisses') fun hnull hbare => ?_
    by_contra hfunction
    exact hpasses ⟨hfunction, (Context.exists_null_iff hnulls).mp hnull,
      (Context.bareNulls_iff hcurrent hnulls).mp hbare⟩

end Bind

/-- **Calls that binding accepts have values of their types**: whatever values of their types the arguments
of a function have, if none of the types is that of any value, the call has a value of its static type. With
null propagation an argument may be null. Where a null reaches the function, which only the record of the clause
lets through, the call fails, unless the function joins texts. -/
theorem accepted_calls_have_typed_values [External] {ctx : Context} {name : String} {args : List Node}
    {e : Expr} (hname : Text.asciiLower name ≠ "cast" ∧ Text.asciiLower name ≠ "isof")
    (h : ((Node.call name args).bind ctx).1 = .ok e) :
    ∃ b xs after, Builtin.ofName? (Text.asciiLower name) = some b ∧
      Bind.InTurn Node.bind args ctx.deeper xs after ∧
      ∀ {s : Schema} {env : Env} {vs : List Value}, (∀ x ∈ xs, x.type.isObject = false) →
        List.Forall₂ (fun x v => x.eval env = .ok v ∧ s.admits x.type v = true ∧
          (v.isNull = true → ctx.settings.nullPropagation = true)) xs vs →
        (ctx.PassesNull b xs vs → ∃ err, e.eval env = .error err) ∧
        (¬ ctx.PassesNull b xs vs → ¬ b.function.MayFail vs → ¬ b.function.Misses vs →
          ∃ v, e.eval env = .ok v ∧ s.admits e.type v = true) := by
  have hroom := Node.lt_of_bind_eq_ok h
  rw [Node.bind_of_lt _ hroom] at h
  obtain ⟨b, xs, hb, hxs, hvalue⟩ := Bind.exists_call hname (Prod.ext h rfl)
  have hframe := hxs.frame (Node.bindWithin_keeps _)
  refine ⟨b, xs, _, hb, hxs.bind rfl, fun {s env vs} hobject hvs => ?_⟩
  have hpasses : ctx.PassesNull b xs vs ↔ Context.PassesNull _ b xs vs :=
    Context.passesNull_congr hframe.sameClause.isCurrent
  rw [hpasses]
  refine hvalue hobject (hvs.imp ?_)
  rintro x v ⟨hx, hv, hnull⟩
  refine ⟨hx, hv, fun hisNull => ?_⟩
  rw [hframe.settings]
  exact hnull hisNull

/-! ### Visits -/

/-- Visits with a note and a time stamp. -/
def stampSchema : Schema :=
  ⟨[("Visit", ⟨"Visit", [("Note", .string), ("At", .dateTime)], none⟩)], [], []⟩

/-- The clause over visits. -/
def stampContext : Context := .initial stampSchema {} (.record "Visit")

/-- A member of the visit. -/
def stampMember (name : String) : Node :=
  .property (.rangeVariable ⟨RangeVariable.itName, .entity "Visit" true⟩) name .single

/-- A visit without a note. -/
def plainVisit : Value := .record "Visit" [("Note", .null), ("At", .dateTime newYear.utc)]

/-- The length of a note that is null. -/
theorem accepted_calls_have_typed_values_of_notes :
    ∃ e, ((Node.call "Length" [stampMember "Note"]).bind stampContext).1 = .ok e ∧
      ∃ v, e.eval [(0, plainVisit)] = .ok v ∧ stampSchema.admits e.type v = true := by
  obtain ⟨e, he⟩ : ∃ e, ((Node.call "Length" [stampMember "Note"]).bind stampContext).1 = .ok e :=
    ⟨_, rfl⟩
  obtain ⟨b, xs, after, hb, hxs, hvalue⟩ := accepted_calls_have_typed_values (by decide +kernel) he
  obtain rfl : ⟨"length", .length, [.text], 0⟩ = b := Option.some.inj hb
  cases hxs with
  | cons hnote hrest =>
    cases hrest
    cases hnote
    obtain ⟨-, hvalues⟩ := @hvalue stampSchema [(0, plainVisit)] [.null] (by decide)
      (.cons ⟨rfl, rfl, fun _ => rfl⟩ .nil)
    refine ⟨e, he, hvalues (fun hpasses => ?_) id id⟩
    obtain ⟨-, -, hbare⟩ := hpasses
    cases hbare with
    | cons hbare _ => exact absurd (hbare rfl) (by decide)

/-- The clause over texts. -/
def textContext : Context := .initial .empty {} .string

/-- The record of the clause over texts. -/
def currentText : Node := .rangeVariable ⟨RangeVariable.thisName, .primitive .string true⟩

/-- The time of day of a time stamp: the call is bound, its argument has a value of its type, and it
fails. So does the length of the record of a clause over texts where that is null. -/
theorem times_of_time_stamps_fail :
    (∃ x e, ((stampMember "At").bind stampContext.deeper).1 = .ok x ∧
      ((Node.call "time" [stampMember "At"]).bind stampContext).1 = .ok e ∧
      x.type = .dateTime ∧ x.eval [(0, plainVisit)] = .ok (.dateTime newYear.utc) ∧ e.type = .timeOfDay ∧
      e.eval [(0, plainVisit)] = .error (.evaluation (.invalidCast (.dateTime newYear.utc) .timeOfDay))) ∧
    ∃ x e, (currentText.bind textContext.deeper).1 = .ok x ∧
      ((Node.call "length" [currentText]).bind textContext).1 = .ok e ∧
      x.type = .string ∧ x.eval [(0, .null)] = .ok .null ∧
      e.eval [(0, .null)] = .error (.evaluation (.notApplicable .length [.null])) :=
  ⟨⟨_, _, rfl, rfl, rfl, rfl, rfl, rfl⟩, _, _, rfl, rfl, rfl, rfl, rfl⟩

end TypedQuery
