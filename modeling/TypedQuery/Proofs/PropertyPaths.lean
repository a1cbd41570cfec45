import TypedQuery.Proofs.FlattenedScopes
import TypedQuery.Proofs.NullOperands
import TypedQuery.Proofs.Numbers
import TypedQuery.Proofs.OperatorTypes
import TypedQuery.Proofs.Parameterization

/-!
# Values of paths

A chain of declared properties reads a path in the record of a clause. With null propagation each
member is guarded by the chain before it, so that the chain is null where a record on the way is;
without, it fails there. Only the last member may be of a less common primitive type, which is
widened.

* `Value.follow?`, `Value.NullBefore`: what is at a path, and null on the way.
* `Value.toCommon`: the rule by which less common primitives are widened.
* `Expr.StandsFor`: an expression for what is at a path.
* **`property_chains_read_paths`**: the value of a chain.
-/

namespace TypedQuery

/-! ## Paths in values -/

namespace Value

/-- The field of a record. -/
def field? : Value → String → Option Value
  | .record _ fields, name => Entries.get? fields name
  | _, _ => none

/-- What is at a path from a value on; there is nothing behind null. -/
def follow? (v : Value) (path : List String) : Option Value := path.foldlM field? v

/-- There is null at a place of the path before its end. -/
def NullBefore (v : Value) (path : List String) : Prop :=
  ∃ init rest, init ++ rest = path ∧ rest ≠ [] ∧ v.follow? init = some .null

/-- A less common primitive as the common one that it is widened to. -/
def toCommon : Value → Value
  | .int ⟨.uint16, n, _⟩ => .int32 n
  | .int ⟨.uint32, n, _⟩ => .int64 n
  | .int ⟨.uint64, n, _⟩ => .ofDecimal (Float.ofInt n)
  | .char c => .string (String.singleton c)
  | .charArray cs => .string (String.ofList cs)
  | .xml text => .string text
  | v => v

/-- A value as a member of a declared type is read. -/
def readAs (t : HostType) (v : Value) : Value := if t.isNonStandard then v.toCommon else v

theorem follow?_cons (v : Value) (name : String) (rest : List String) :
    v.follow? (name :: rest) = (v.field? name).bind (·.follow? rest) := by
  unfold follow?
  rw [List.foldlM_cons]
  rfl

theorem not_nullBefore_nil (v : Value) : ¬v.NullBefore [] := by
  rintro ⟨init, rest, happend, hrest, -⟩
  exact hrest (List.append_eq_nil_iff.mp happend).2

theorem nullBefore_cons (v : Value) (name : String) (rest : List String) :
    v.NullBefore (name :: rest) ↔ v = .null ∨ ∃ w, v.field? name = some w ∧ w.NullBefore rest := by
  constructor
  · rintro ⟨init, last, happend, hlast, hnull⟩
    cases init with
    | nil =>
      cases hnull
      exact .inl rfl
    | cons first init =>
      obtain ⟨rfl, rfl⟩ := List.cons.inj happend
      rw [follow?_cons] at hnull
      obtain ⟨w, hw, hnull⟩ := Option.bind_eq_some_iff.mp hnull
      exact .inr ⟨w, hw, init, last, rfl, hlast, hnull⟩
  · rintro (rfl | ⟨w, hw, init, last, rfl, hlast, hnull⟩)
    · exact ⟨[], name :: rest, rfl, by simp, rfl⟩
    · refine ⟨name :: init, last, rfl, hlast, ?_⟩
      rw [follow?_cons, hw]
      exact hnull

end Value

namespace Schema

variable {s : Schema}

/-- The declared type of a member of a record type. -/
def memberType? (s : Schema) (t : HostType) (name : String) : Option HostType :=
  (t.recordName?.bind fun typeName => s.member? typeName name).map Member.type

/-- The declared type at a path from a type on. -/
def typeAt? (s : Schema) (t : HostType) (path : List String) : Option HostType :=
  path.foldlM s.memberType? t

theorem typeAt?_cons (s : Schema) (t : HostType) (name : String) (rest : List String) :
    s.typeAt? t (name :: rest) = (s.memberType? t name).bind (s.typeAt? · rest) := by
  unfold typeAt?
  rw [List.foldlM_cons]
  rfl

/-- A record has a value of the declared type for each member. -/
theorem exists_field {t u : HostType} {v : Value} {name : String} (h : s.admits t v = true)
    (hnull : v.isNull = false) (hmember : s.memberType? t name = some u) :
    ∃ w, v.field? name = some w ∧ s.admits u w = true := by
  obtain ⟨m, hm, rfl⟩ := Option.map_eq_some_iff.mp hmember
  obtain ⟨typeName, hname, hm⟩ := Option.bind_eq_some_iff.mp hm
  have ht : t.nonNullable = .record typeName := by
    cases t <;> first | (cases hname; done) | skip
    cases hname
    rfl
  obtain ⟨r, fields, rfl, hr, hnames, hfields⟩ := (admits_record_iff ht hnull).mp h
  obtain ⟨r', hr', hm'⟩ := Option.bind_eq_some_iff.mp hm
  obtain ⟨u, hu, hm'⟩ := Option.bind_eq_some_iff.mp hm'
  cases hr.symm.trans hr'
  have hmem : name ∈ Entries.names fields :=
    hnames.mem_iff.mpr (List.mem_map.mpr ⟨_, Entries.mem_of_get? hu, rfl⟩)
  obtain ⟨w, hw⟩ := Entries.exists_of_mem_names hmem
  obtain ⟨m', hm'', hadmits⟩ := hfields _ (Entries.mem_of_get? hw)
  cases hm.symm.trans hm''
  exact ⟨w, hw, hadmits⟩

/-- **What is at a path has the type at the path**, or there is null on the way. -/
theorem follow?_of_admits {t u : HostType} {v : Value} {path : List String}
    (h : s.admits t v = true) (htype : s.typeAt? t path = some u) :
    (v.NullBefore path ∧ v.follow? path = none) ∨
      (¬v.NullBefore path ∧ ∃ w, v.follow? path = some w ∧ s.admits u w = true) := by
  induction path generalizing t v with
  | nil =>
    cases htype
    exact .inr ⟨v.not_nullBefore_nil, v, rfl, h⟩
  | cons name rest ih =>
    rw [typeAt?_cons] at htype
    obtain ⟨m, hm, htype⟩ := Option.bind_eq_some_iff.mp htype
    rw [Value.follow?_cons, Value.nullBefore_cons]
    cases hnull : v.isNull with
    | true =>
      obtain rfl := Value.eq_null hnull
      exact .inl ⟨.inl rfl, rfl⟩
    | false =>
      obtain ⟨w, hw, hadmits⟩ := exists_field h hnull hm
      have hne : v ≠ .null := by
        rintro rfl
        cases hnull
      simpa [hw, hne] using ih hadmits htype

end Schema

/-! ## Less common primitives -/

theorem HostType.isNonStandard_iff {t : HostType} :
    t.isNonStandard = true ↔ ∃ u, t.nonNullable.widened? = some u := by
  unfold isNonStandard widened?
  split <;> simp_all

namespace Schema

variable {s : Schema} {t u : HostType} {v : Value}

/-- A value that stands for one of another type, if it is that one. -/
theorem convert_common {w : Value} (hcommon : v.toCommon = w) (hconvert : v.convert (u.nullableLike t) = .ok w)
    (hplain : w.isPlain = true) (hw : w.isInstanceOf u = true) :
    v.convert (u.nullableLike t) = .ok v.toCommon ∧ s.admits (u.nullableLike t) v.toCommon = true := by
  rw [hcommon, admits_of_isPlain hplain, Value.isInstanceOf_congr w (HostType.nonNullable_nullableLike u t)]
  exact ⟨hconvert, hw⟩

/-- An integer is widened to one that holds it. -/
theorem convert_common_int {w : IntWidth} {n : SizedInt} (hn : w.Holds n.val)
    (hcommon : (Value.int n).toCommon = .int ⟨w, n.val, hn⟩) :
    (Value.int n).convert (HostType.nullableLike (.int w) t) = .ok (Value.int n).toCommon ∧
      s.admits (HostType.nullableLike (.int w) t) (Value.int n).toCommon = true :=
  convert_common hcommon (Value.convert_int (HostType.nonNullable_nullableLike _ t) hn) rfl
    (by simp [Value.isInstanceOf, HostType.nonNullable, Value.hostType?])

/-- A value of a less common primitive type is converted to the common one. -/
theorem convert_widened (hv : s.admits t v = true) (hu : t.nonNullable.widened? = some u) :
    v.convert (u.nullableLike t) = .ok v.toCommon ∧ s.admits (u.nullableLike t) v.toCommon = true := by
  have htarget := HostType.nonNullable_nullableLike u t
  cases hnull : v.isNull with
  | true =>
    obtain rfl := Value.eq_null hnull
    have hnullable := (HostType.widened?_eq_some hu).2 hv
    exact ⟨by rw [Value.convert, if_pos hnullable]; rfl, hnullable⟩
  | false =>
    have hinstance := isInstanceOf_of_admits hv hnull
    unfold HostType.widened? at hu
    split at hu
    case h_7 => cases hu
    case h_1 ht =>
      cases hu
      obtain ⟨n, hn, rfl⟩ := Value.exists_int_of_isInstanceOf hinstance ht
      have hholds : IntWidth.int32.Holds n := by
        simp only [IntWidth.Holds, IntWidth.least, IntWidth.greatest] at hn ⊢
        omega
      exact convert_common_int hholds (congrArg Value.int (SizedInt.int32_of_holds hholds))
    case h_2 ht =>
      cases hu
      obtain ⟨n, hn, rfl⟩ := Value.exists_int_of_isInstanceOf hinstance ht
      have hholds : IntWidth.int64.Holds n := by
        simp only [IntWidth.Holds, IntWidth.least, IntWidth.greatest] at hn ⊢
        omega
      exact convert_common_int hholds (congrArg Value.int (SizedInt.int64_of_holds hholds))
    case h_3 ht =>
      cases hu
      obtain ⟨n, hn, rfl⟩ := Value.exists_int_of_isInstanceOf hinstance ht
      have hcommon : Value.ofDecimal (Float.ofInt n) = .decimal ⟨Float.ofInt n, Number.isNaN_ofInt n⟩ := by
        rw [Value.ofDecimal, Binary64.ofFloat?, dif_pos (Number.isNaN_ofInt n)]
        rfl
      refine convert_common hcommon ?_ rfl rfl
      rw [Value.convert_of_not_isInstanceOf rfl (by simp) htarget rfl,
        Value.convertScalar_float rfl rfl (.inr (.inr htarget)), htarget]
      exact Value.ofFloat_decimal (Number.isNaN_ofInt n)
    all_goals
      -- characters, arrays of them and XML become texts
      rename_i ht
      cases hu
      have hform := Value.hasForm_of_isInstanceOf hinstance
      rw [ht] at hform
      obtain ⟨text, rfl⟩ := hform
      refine convert_common rfl ?_ rfl rfl
      rw [Value.convert_of_not_isInstanceOf rfl (by simp) htarget rfl]
      unfold Value.convertScalar
      rw [htarget]
      rfl

end Schema

namespace Expr

variable [External] {s : Schema} {env : Env} {e : Expr} {v : Value}

theorem widenPrimitive_eval (he : e.eval env = .ok v) (hv : s.admits e.type v = true) :
    e.widenPrimitive.eval env = .ok (v.readAs e.type) ∧
      s.admits e.widenPrimitive.type (v.readAs e.type) = true := by
  unfold widenPrimitive Value.readAs
  cases hu : e.type.nonNullable.widened? with
  | none =>
    have hstandard : ¬e.type.isNonStandard = true := by
      rw [HostType.isNonStandard_iff, hu]
      simp
    rw [if_neg hstandard]
    exact ⟨he, hv⟩
  | some u =>
    rw [if_pos (HostType.isNonStandard_iff.mpr ⟨u, hu⟩)]
    obtain ⟨hconvert, hadmits⟩ := Schema.convert_widened hv hu
    exact ⟨by rw [eval, he]; exact hconvert, hadmits⟩

theorem widenPrimitive_eval_error {err : Error} (he : e.eval env = .error err) :
    e.widenPrimitive.eval env = .error err := by
  unfold widenPrimitive
  split
  · rw [eval, he]
    rfl
  · exact he

end Expr

/-! ## Access to members -/

/-- The outcome is what is at a place. Where there is nothing, it is null or a failure. -/
def Outcome.Reads (propagation : Bool) (place : Option Value) (o : Outcome Value) : Prop :=
  match place with
  | some v => o = .ok v
  | none => if propagation then o = .ok .null else ∃ err, o = .error err

/-- The expression is one of a record type for what is at a place, and the record of the clause
only where there is a record at that place. -/
structure Expr.StandsFor [External] (ctx : Context) (env : Env) (typeName : String) (place : Option Value)
    (e : Expr) : Prop where
  type : e.type = .record typeName
  reads : (e.eval env).Reads ctx.settings.nullPropagation place
  admits : ∀ v, place = some v → ctx.schema.admits (.record typeName) v = true
  current : ctx.isCurrent e = true → ∃ v, place = some v ∧ v.isNull = false
  notConst : e.isNonNullConst = false

namespace Context

variable {ctx : Context} {env : Env} {typeName name : String} {place : Option Value}
  {source e : Expr}

/-- What a member of an expression is bound to. -/
theorem exists_of_memberAccess (he : ctx.memberAccess source name = .ok e) :
    ∃ typeName m, source.type = .record typeName ∧ ctx.schema.member? typeName name = some m ∧
      m.name = name ∧ e = ctx.guardIfNeeded source (Expr.widenPrimitive (.member source m)) := by
  unfold memberAccess at he
  split at he
  next m hm =>
    cases he
    obtain ⟨typeName, hname, hm⟩ := Option.bind_eq_some_iff.mp hm
    have htype : source.type = .record typeName := by
      cases ht : source.type <;> rw [ht] at hname <;> cases hname
      rfl
    have hname : m.name = name := by
      obtain ⟨_, _, hm⟩ := Option.bind_eq_some_iff.mp hm
      obtain ⟨_, _, hm⟩ := Option.bind_eq_some_iff.mp hm
      cases hm
      rfl
    exact ⟨typeName, m, htype, hm, hname, rfl⟩
  next => cases he

/-- The value of a member where there is a record. -/
theorem memberAccess_eval [External] {v w : Value} {m : Member} (hsource : source.eval env = .ok v)
    (hnull : v.isNull = false) (hw : v.field? m.name = some w)
    (hadmits : ctx.schema.admits m.type w = true) :
    (ctx.guardIfNeeded source (Expr.widenPrimitive (.member source m))).eval env =
      .ok (w.readAs m.type) := by
  have hmember : (Expr.member source m).eval env = .ok w := by
    rw [Expr.eval, hsource]
    cases v <;> first | cases hw | skip
    exact congrArg (orFail _) hw
  obtain ⟨hread, hresult⟩ := Expr.widenPrimitive_eval hmember hadmits
  rw [guardIfNeeded_eq, List.filter_singleton]
  cases ctx.needsGuard source with
  | false => exact hread
  | true =>
    have hnone : Expr.someNull env [source] = .ok false :=
      Expr.someNull_of_nonNull (List.forall_mem_singleton.mpr ⟨v, hsource, hnull⟩)
    rw [Bool.cond_true, Expr.eval_guardCall, hnone, Outcome.ok_bind, if_neg Bool.false_ne_true,
      Expr.eval_convertTo_of_fits]
    · exact hread
    · rw [hread]
      exact (Schema.convert_of_admits hresult (HostType.nonNullable_toNullable _).symm
        fun _ => HostType.isNullable_toNullable _).1

/-- The value of a member where there is no record. -/
theorem memberAccess_eval_none [External] (m : Member) (hsource : source.StandsFor ctx env typeName place)
    (hplace : ∀ v, place = some v → v = .null) :
    ((ctx.guardIfNeeded source (Expr.widenPrimitive (.member source m))).eval env).Reads
      ctx.settings.nullPropagation none := by
  have hcurrent : ctx.isCurrent source = false := by
    cases h : ctx.isCurrent source with
    | false => rfl
    | true =>
      obtain ⟨v, hv, hnull⟩ := hsource.current h
      rw [hplace v hv] at hnull
      cases hnull
  have hreads := hsource.reads
  rw [guardIfNeeded_eq, List.filter_singleton]
  cases hpropagation : ctx.settings.nullPropagation with
  | true =>
    have hguard : ctx.needsGuard source = true := by
      simp [needsGuard, hpropagation, hsource.type, hcurrent, hsource.notConst, HostType.isNullable,
        HostType.isValueType]
    have hnull : source.eval env = .ok .null := by
      rw [hpropagation] at hreads
      cases hp : place with
      | none => rwa [hp] at hreads
      | some v =>
        obtain rfl := hplace v hp
        rwa [hp] at hreads
    have htrue : Expr.someNull env [source] = .ok true := by
      rw [Expr.someNull, hnull]
      rfl
    rw [hguard, Bool.cond_true, Expr.eval_guardCall, htrue]
    rfl
  | false =>
    have hguard : ctx.needsGuard source = false := by simp [needsGuard, hpropagation]
    have hfails : ∃ err, (Expr.member source m).eval env = .error err := by
      rw [Expr.eval]
      rw [hpropagation] at hreads
      cases hp : place with
      | none =>
        rw [hp] at hreads
        obtain ⟨err, herr⟩ := hreads
        exact ⟨err, by rw [herr]; rfl⟩
      | some v =>
        obtain rfl := hplace v hp
        rw [hp] at hreads
        exact ⟨_, by rw [show source.eval env = .ok .null from hreads]; rfl⟩
    obtain ⟨err, herr⟩ := hfails
    rw [hguard, Bool.cond_false]
    exact ⟨err, Expr.widenPrimitive_eval_error herr⟩

/-- An expression for a member is neither the record of the clause nor a literal. -/
theorem memberAccess_plain (hflat : ctx.flatteningSource = none) (source : Expr) (m : Member) :
    let e := ctx.guardIfNeeded source (Expr.widenPrimitive (.member source m))
    ctx.isCurrent e = false ∧ e.isNonNullConst = false := by
  have hmember : ctx.isCurrent (.member source m) = false :=
    Expr.isCurrent_member m fun h => by simp [isFlattened, hflat] at h
  dsimp only
  unfold guardIfNeeded Expr.widenPrimitive
  split
  · exact ⟨rfl, rfl⟩
  · split
    · exact ⟨rfl, rfl⟩
    · exact ⟨hmember, rfl⟩

/-- A member that is bound to an expression of a record type is of that type. -/
theorem type_of_memberAccess {m : Member} {next : String}
    (h : (ctx.guardIfNeeded source (Expr.widenPrimitive (.member source m))).type = .record next) :
    m.type = .record next := by
  have hresult : (Expr.widenPrimitive (.member source m)).type = .record next := by
    rw [guardIfNeeded_eq, List.filter_singleton] at h
    cases hguard : ctx.needsGuard source with
    | false =>
      rw [hguard] at h
      exact h
    | true =>
      rw [hguard, Bool.cond_true, Expr.type_guardCall] at h
      generalize (Expr.widenPrimitive (.member source m)).type = t at h
      cases t <;> first | exact h | cases h
  unfold Expr.widenPrimitive at hresult
  split at hresult
  next u hu =>
    have hplain := (HostType.widened?_eq_some hu).1
    rw [show u.nullableLike _ = _ from hresult] at hplain
    cases hplain
  next => exact hresult

/-- **A member reads one place further.** -/
theorem memberAccess_reads [External] (hflat : ctx.flatteningSource = none)
    (hs : source.StandsFor ctx env typeName place) (he : ctx.memberAccess source name = .ok e) :
    ∃ t, ctx.schema.memberType? (.record typeName) name = some t ∧
      (e.eval env).Reads ctx.settings.nullPropagation
        ((place.bind (·.field? name)).map (Value.readAs t)) ∧
      ∀ next, e.type = .record next → t = .record next ∧
        e.StandsFor ctx env next (place.bind (·.field? name)) := by
  obtain ⟨typeName', m, htype, hm, rfl, rfl⟩ := exists_of_memberAccess he
  cases hs.type.symm.trans htype
  have hmember : ctx.schema.memberType? (.record typeName) m.name = some m.type :=
    Option.map_eq_some_iff.mpr ⟨m, hm, rfl⟩
  have hreads : ((ctx.guardIfNeeded source (Expr.widenPrimitive (.member source m))).eval env).Reads
      ctx.settings.nullPropagation ((place.bind (·.field? m.name)).map (Value.readAs m.type)) := by
    cases hp : place with
    | none =>
      exact memberAccess_eval_none m hs fun v hv => by rw [hp] at hv; cases hv
    | some v =>
      cases hnull : v.isNull with
      | true =>
        obtain rfl := Value.eq_null hnull
        refine memberAccess_eval_none m hs fun v hv => ?_
        rw [hp] at hv
        cases hv
        rfl
      | false =>
        obtain ⟨w, hw, hadmits⟩ := Schema.exists_field (hs.admits v hp) hnull hmember
        have hsource : source.eval env = .ok v := by
          have hreads := hs.reads
          rwa [hp] at hreads
        rw [Option.bind_some, hw]
        exact memberAccess_eval hsource hnull hw hadmits
  refine ⟨m.type, hmember, hreads, fun next hnext => ?_⟩
  have ht := type_of_memberAccess hnext
  rw [ht] at hreads hmember
  have hrecord : Value.readAs (.record next) = id := rfl
  obtain ⟨hcurrent, hconst⟩ := memberAccess_plain hflat source m
  refine ⟨ht, hnext, ?_, fun w hw => ?_, fun h => ?_, hconst⟩
  · rwa [hrecord, Option.map_id, id] at hreads
  · obtain ⟨v, hv, hw⟩ := Option.bind_eq_some_iff.mp hw
    have hnull : v.isNull = false := by cases v <;> first | rfl | cases hw
    obtain ⟨w', hw', hadmits⟩ := Schema.exists_field (hs.admits v hv) hnull hmember
    cases hw.symm.trans hw'
    exact hadmits
  · rw [hcurrent] at h
    cases h

/-- **A chain of members reads a path.** -/
theorem path_reads [External] (hflat : ctx.flatteningSource = none) {path : List String} (hpath : path ≠ [])
    (hs : source.StandsFor ctx env typeName place) (he : path.foldlM ctx.memberAccess source = .ok e) :
    ∃ t, ctx.schema.typeAt? (.record typeName) path = some t ∧
      (e.eval env).Reads ctx.settings.nullPropagation
        ((place.bind (·.follow? path)).map (Value.readAs t)) := by
  induction path generalizing source typeName place with
  | nil => exact absurd rfl hpath
  | cons name rest ih =>
    rw [List.foldlM_cons] at he
    obtain ⟨access, haccess, he⟩ := Outcome.bind_eq_ok.mp he
    obtain ⟨t, ht, hreads, hnext⟩ := memberAccess_reads hflat hs haccess
    rw [Schema.typeAt?_cons, ht, Option.bind_some]
    simp only [Value.follow?_cons]
    cases rest with
    | nil =>
      cases he
      exact ⟨t, rfl, by simpa [Value.follow?] using hreads⟩
    | cons second rest =>
      have hsecond := he
      rw [List.foldlM_cons] at hsecond
      obtain ⟨_, hsecond, -⟩ := Outcome.bind_eq_ok.mp hsecond
      obtain ⟨next, _, htype, -⟩ := exists_of_memberAccess hsecond
      obtain ⟨rfl, hstands⟩ := hnext next htype
      obtain ⟨u, hu, hreads⟩ := ih (by simp) hstands he
      exact ⟨u, hu, by rwa [Option.bind_assoc] at hreads⟩

end Context

/-! ## Chains as they are bound -/

/-- **Chains of declared properties read the path.** Where a record on the way is null, the chain is
null with null propagation and fails without; else it gives the last member, with a less common
primitive widened. -/
theorem property_chains_read_paths [External] {ctx : Context} (hroot : ctx.root = ctx.current)
    (hflattened : ctx.flattened = []) (hsource : ctx.flatteningSource = none) {node : Node}
    {v : RangeVariable} {path : List String} (hchain : node.chain? = some (v, path))
    (hit : v.name = RangeVariable.itName) (hpath : path ≠ []) {e : Expr} {c' : Context}
    (h : node.bind ctx = (.ok e, c')) {env : Env} {item : Value}
    (hitem : (Expr.param ctx.current).eval env = .ok item)
    (hadmits : ctx.schema.admits ctx.current.type item = true) (hnull : item.isNull = false) :
    (item.NullBefore path → if ctx.settings.nullPropagation then e.eval env = .ok .null
      else ∃ err, e.eval env = .error err) ∧
    (¬item.NullBefore path → ∃ t w, ctx.schema.typeAt? ctx.current.type path = some t ∧
      item.follow? path = some w ∧ ctx.schema.admits t w = true ∧
      e.eval env = .ok (w.readAs t)) := by
  have hresolve : ctx.resolve v = .ok (.param ctx.current) := by
    simp [Context.resolve, Context.currentExpr, hit, hroot, hsource, RangeVariable.itName,
      RangeVariable.thisName]
  obtain ⟨source, hs, he⟩ := Node.bindWithin_chain hchain (by simp [hflattened, Entries.get?]) h
  cases hresolve.symm.trans hs
  obtain ⟨typeName, htype⟩ : ∃ typeName, ctx.current.type = .record typeName := by
    cases path with
    | nil => exact absurd rfl hpath
    | cons name rest =>
      rw [List.foldlM_cons] at he
      obtain ⟨_, hfirst, -⟩ := Outcome.bind_eq_ok.mp he
      obtain ⟨typeName, _, htype, -⟩ := Context.exists_of_memberAccess hfirst
      exact ⟨typeName, htype⟩
  rw [htype] at hadmits ⊢
  have hstands : (Expr.param ctx.current).StandsFor ctx env typeName (some item) :=
    ⟨htype, hitem, fun w hw => by cases hw; exact hadmits, fun _ => ⟨item, rfl, hnull⟩, rfl⟩
  obtain ⟨t, ht, hreads⟩ := Context.path_reads hsource hpath hstands he
  rw [Option.bind_some] at hreads
  rcases Schema.follow?_of_admits hadmits ht with ⟨hbefore, hnone⟩ | ⟨hbefore, w, hw, hadmits⟩
  · rw [hnone] at hreads
    exact ⟨fun _ => hreads, fun h => absurd hbefore h⟩
  · rw [hw] at hreads
    exact ⟨fun h => absurd h hbefore, fun _ => ⟨t, w, ht, hw, hadmits, hreads⟩⟩

/-! ### Cars -/

/-- Cars with an engine, which has a maker with a short code. -/
def carContext (settings : Settings) : Context :=
  .initial ⟨[("Car", ⟨"Car", [("Engine", .record "Engine")], none⟩),
    ("Engine", ⟨"Engine", [("Maker", .record "Maker")], none⟩),
    ("Maker", ⟨"Maker", [("Code", .int .uint16)], none⟩)], [], []⟩ settings (.record "Car")

/-- The code of the maker of the engine of a car. -/
def makerCode : Node :=
  .property (.property (.property (.rangeVariable ⟨RangeVariable.itName, .entity "Car" true⟩)
    "Engine" .navigation) "Maker" .navigation) "Code" .single

/-- A car whose engine has some maker. -/
def carOf (maker : Value) : Value := .record "Car" [("Engine", .record "Engine" [("Maker", maker)])]

/-- The code is read as a number of 32 bits; where the maker is null, it is null with null
propagation, and not read without. -/
theorem maker_code_of_cars :
    (∃ e, (makerCode.bind (carContext {})).1 = .ok e ∧
      e.eval [(0, carOf (.record "Maker" [("Code", .int ⟨.uint16, 7, by decide⟩)]))] =
        .ok (.int32 7) ∧
      e.eval [(0, carOf .null)] = .ok .null) ∧
    ∃ e, (makerCode.bind (carContext .withoutNullPropagation)).1 = .ok e ∧
      ∃ err, e.eval [(0, carOf .null)] = .error err := by
  have hnull : (carOf .null).NullBefore ["Engine", "Maker", "Code"] :=
    ⟨["Engine", "Maker"], ["Code"], rfl, by simp, rfl⟩
  have hmaker : ¬(carOf (.record "Maker" [("Code", .int ⟨.uint16, 7, by decide⟩)])).NullBefore
      ["Engine", "Maker", "Code"] := by
    simp [Value.nullBefore_cons, Value.not_nullBefore_nil, carOf, Value.field?, Entries.get?]
  obtain ⟨e₁, he₁⟩ : ∃ e, (makerCode.bind (carContext {})).1 = .ok e := ⟨_, rfl⟩
  obtain ⟨e₂, he₂⟩ : ∃ e, (makerCode.bind (carContext .withoutNullPropagation)).1 = .ok e :=
    ⟨_, rfl⟩
  have hread {settings : Settings} {e : Expr} (h : (makerCode.bind (carContext settings)).1 = .ok e)
      {maker : Value}
      (hadmits : (carContext settings).schema.admits (.record "Car") (carOf maker) = true) :=
    property_chains_read_paths rfl rfl rfl rfl rfl (by simp) (Prod.ext h rfl)
      (show (Expr.param (carContext settings).current).eval [(0, carOf maker)] = _ from rfl)
      hadmits rfl
  refine ⟨⟨e₁, he₁, ?_, (hread he₁ (by decide)).1 hnull⟩, e₂, he₂, (hread he₂ (by decide)).1 hnull⟩
  obtain ⟨t, w, ht, hw, -, he⟩ := (hread he₁ (by decide)).2 hmaker
  obtain rfl : .int .uint16 = t := Option.some_inj.mp ht
  obtain rfl : .int ⟨.uint16, 7, by decide⟩ = w := Option.some_inj.mp hw
  exact he

end TypedQuery
