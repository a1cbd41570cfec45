import Mathlib.Algebra.Group.Nat.Defs
import TypedQuery.Proofs.NullOperands

/-!
# Operators on integers

Two integers of any width up to 64 bits, the unsigned one aside, are brought to a common width that holds
both: the type of the two, if it is one, and else 32 or 64 bits. So they are compared as numbers, and
arithmetic gives the exact integer if the common width holds it, and an error if not. Null is an operand like any
other: arithmetic with it is null, and so is a comparison with null propagation; without, only null
equals null.

* `QueryOp.result?`, `QueryOp.holds`, `QueryOp.holdsOfNulls`: the integers and the truths that are asked for.
* `Expr.HasInt`: an integer, or null, as the value of an expression.
* `Bind.exists_promote_int`: the common width.
* **`integer_operators_are_exact`**: the operators on two integers.
-/

namespace TypedQuery

/-! ## The operators on integers -/

namespace QueryOp

/-- Whether the operator computes a number. -/
def isArithmetic : QueryOp → Bool
  | .add | .sub | .mul | .div | .mod => true
  | _ => false

/-- The integer that an operator gives for two, none for a division by zero. A quotient is rounded toward
zero, and a remainder has the sign of the dividend. -/
def result? (op : QueryOp) (m n : Int) : Option Int :=
  match op with
  | .add => some (m + n)
  | .sub => some (m - n)
  | .mul => some (m * n)
  | .div => if n = 0 then none else some (m.tdiv n)
  | .mod => if n = 0 then none else some (m.tmod n)
  | _ => none

/-- Whether a comparison holds of two values in an order. -/
def holds (op : QueryOp) (o : Ordering) : Bool :=
  match op with
  | .eq => o = .eq
  | .ne => o ≠ .eq
  | .gt => o = .gt
  | .ge => o ≠ .lt
  | .lt => o = .lt
  | .le => o ≠ .gt
  | _ => false

/-- Whether a comparison holds where one side is null, or both are. -/
def holdsOfNulls (op : QueryOp) (both : Bool) : Bool :=
  match op with
  | .eq => both
  | .ne => !both
  | _ => false

/-- What arithmetic on integers of a width gives: null with null, and the exact integer otherwise, if there is one
that the width holds. -/
def computed? (op : QueryOp) (w : IntWidth) (m n : Option Int) : Option Value :=
  match m, n with
  | some m, some n => ((op.result? m n).bind (SizedInt.ofInt? w)).map .int
  | _, _ => some .null

/-- What a comparison of integers gives; with null it is null if it is lifted. -/
def compared (op : QueryOp) (lifted : Bool) (m n : Option Int) : Value :=
  match m, n with
  | some m, some n => .bool (op.holds (compare m n))
  | m, n => if lifted then .null else .bool (op.holdsOfNulls (m.isNone && n.isNone))

variable {op : QueryOp} {bop : BinaryOp} {m n k : Int}

theorem exists_binaryOp (hop : op.isArithmetic = true ∨ op.isComparison = true) :
    ∃ bop, op.binaryOp? = some bop := by
  cases op <;> first | exact ⟨_, rfl⟩ | (rcases hop with h | h <;> cases h)

theorem isLogical_binaryOp (hbop : op.binaryOp? = some bop)
    (hop : op.isArithmetic = true ∨ op.isComparison = true) : bop.isLogical = false := by
  cases op <;> cases hbop <;> first | rfl | (rcases hop with h | h <;> cases h)

theorem isComparison_binaryOp (hbop : op.binaryOp? = some bop) : bop.isComparison = op.isComparison := by
  cases op <;> cases hbop <;> rfl

theorem isComparison_of_isArithmetic (hop : op.isArithmetic = true) : op.isComparison = false := by
  cases op <;> first | rfl | cases hop

theorem holds_binaryOp (hbop : op.binaryOp? = some bop) (hop : op.isComparison = true) (o : Ordering) :
    bop.holds o = op.holds o := by
  cases op <;> first | (cases hop; done) | (cases hbop; cases o <;> rfl)

theorem compareNulls_binaryOp (hbop : op.binaryOp? = some bop) (hop : op.isComparison = true)
    (both lifted : Bool) :
    bop.compareNulls both lifted = if lifted then .null else .bool (op.holdsOfNulls both) := by
  cases op <;> first | (cases hop; done) | (cases hbop; cases lifted <;> rfl)

/-- The integers of 64 bits are far from the ends of 128 bits. -/
theorem natAbs_result?_le (hm : m.natAbs ≤ 2 ^ 63) (hn : n.natAbs ≤ 2 ^ 63) (h : op.result? m n = some k) :
    k.natAbs ≤ 2 ^ 126 := by
  unfold result? at h
  split at h
  · cases h
    omega
  · cases h
    omega
  · cases h
    rw [Int.natAbs_mul]
    exact Nat.le_trans (Nat.mul_le_mul hm hn) (by decide)
  · split_ifs at h
    cases h
    rw [Int.natAbs_tdiv]
    exact Nat.le_trans (Nat.div_le_self ..) (by omega)
  · split_ifs at h
    cases h
    rw [Int.natAbs_tmod]
    exact Nat.le_trans (Nat.mod_le ..) (by omega)
  · cases h

theorem within128_of_natAbs_le (h : n.natAbs ≤ 2 ^ 126) : BinaryOp.within128 n = some n := by
  refine if_pos ?_
  simp only [Number.int128Least, Number.int128Greatest]
  omega

/-- Arithmetic on two integers of 64 bits is exact. -/
theorem integers?_binaryOp (hbop : op.binaryOp? = some bop) (hm : m.natAbs ≤ 2 ^ 63)
    (hn : n.natAbs ≤ 2 ^ 63) : bop.integers? m n = op.result? m n := by
  have hwithin {k : Int} (h : op.result? m n = some k) : BinaryOp.within128 k = some k :=
    within128_of_natAbs_le (natAbs_result?_le hm hn h)
  have hdivision {k : Int} (h : n ≠ 0 → op.result? m n = some k) :
      (if n = 0 then none else BinaryOp.within128 k) = if n = 0 then none else some k := by
    by_cases hzero : n = 0
    · rw [if_pos hzero, if_pos hzero]
    · rw [if_neg hzero, if_neg hzero]
      exact hwithin (h hzero)
  cases op <;> cases hbop
  case add => exact hwithin rfl
  case sub => exact hwithin rfl
  case mul => exact hwithin rfl
  case div => exact hdivision (k := m.tdiv n) fun hzero => if_neg hzero
  case mod => exact hdivision (k := m.tmod n) fun hzero => if_neg hzero
  all_goals rfl

end QueryOp

/-- The numbers of a width have 64 bits, or 64 without a sign. -/
theorem IntWidth.Holds.natAbs_le {w : IntWidth} {n : Int} (h : w.Holds n) (hw : w ≠ .uint64) :
    n.natAbs ≤ 2 ^ 63 := by
  unfold IntWidth.Holds at h
  cases w <;> first | exact absurd rfl hw | (simp only [IntWidth.least, IntWidth.greatest] at h; omega)

/-- The outcome is a value, or an error of range if there is none. -/
def Outcome.IsOrFails (v : Option Value) (o : Outcome Value) : Prop :=
  match v with
  | some v => o = .ok v
  | none => ∃ err, o = .error err ∧ err.isRangeError = true

/-! ## Integers as operands -/

namespace Expr

/-- An expression of an integer type, with a number or null. -/
def HasInt [External] (env : Env) (w : IntWidth) (n : Option Int) (e : Expr) : Prop :=
  e.type.nonNullable = .int w ∧
    match n with
    | some n => ∃ h : w.Holds n, e.eval env = .ok (.int ⟨w, n, h⟩)
    | none => e.type.isNullable = true ∧ e.eval env = .ok .null

variable {s : Schema} {env : Env} {e l r : Expr} {target : HostType} {u w : IntWidth} {v : Value}
  {m n : Option Int} {op : QueryOp} {bop : BinaryOp}

theorem HasValue.hasInt [External] (h : e.HasValue s env v) (ht : e.type.nonNullable = .int w) :
    e.HasInt env w v.asInt? := by
  obtain ⟨he, hv⟩ := h
  cases hnull : v.isNull with
  | true =>
    obtain rfl := Value.eq_null hnull
    exact ⟨ht, hv, he⟩
  | false =>
    obtain ⟨k, hk, rfl⟩ := Value.exists_int_of_isInstanceOf (Schema.isInstanceOf_of_admits hv hnull) ht
    exact ⟨ht, hk, he⟩

theorem HasInt.exists_value [External] (h : e.HasInt env w n) :
    ∃ v, e.eval env = .ok v ∧ ((n = none ∧ v = .null) ∨ ∃ k hk, n = some k ∧ v = .int ⟨w, k, hk⟩) := by
  cases n with
  | none => exact ⟨.null, h.2.2, .inl ⟨rfl, rfl⟩⟩
  | some k =>
    obtain ⟨-, hk, he⟩ := h
    exact ⟨.int ⟨w, k, hk⟩, he, .inr ⟨k, hk, rfl, rfl⟩⟩

/-- An integer brought to a type that holds the integers of its width. -/
theorem HasInt.convertTo [External] (h : e.HasInt env w n) (ht : target.nonNullable = .int u)
    (hfits : ∀ k, w.Holds k → u.Holds k) (hnull : e.type.isNullable = true → target.isNullable = true) :
    (e.convertTo target).HasInt env u n := by
  refine ⟨by rw [type_convertTo, ht], ?_⟩
  rw [type_convertTo]
  cases n with
  | some k =>
    obtain ⟨hkind, hk, he⟩ := h
    refine ⟨hfits k hk, ?_⟩
    rw [eval_convertTo_of_eval he fun hsame => Value.convert_int (by rw [← hsame, hkind]) hk,
      Value.convert_int ht (hfits k hk)]
  | none =>
    obtain ⟨-, hnullable, he⟩ := h
    have hconvert : Value.null.convert target = .ok .null := by
      unfold Value.convert
      exact if_pos (hnull hnullable)
    refine ⟨hnull hnullable, ?_⟩
    rw [eval_convertTo_of_eval he fun _ => hconvert, hconvert]

/-- **Integers are compared as numbers.** -/
theorem HasInt.compare [External] (hl : l.HasInt env u m) (hr : r.HasInt env w n)
    (hbop : op.binaryOp? = some bop) (hop : op.isComparison = true) (lifted : Bool) :
    (mkBinary bop l r lifted).eval env = .ok (op.compared lifted m n) := by
  have hlogical := QueryOp.isLogical_binaryOp hbop (.inr hop)
  have hcomparison := (QueryOp.isComparison_binaryOp hbop).trans hop
  have happly (a b : Value) (type : HostType) : bop.apply a b lifted type = bop.compareValues a b lifted := by
    rw [BinaryOp.apply, hlogical, hcomparison]
    rfl
  have hnulls (both : Bool) : (.ok (bop.compareNulls both lifted) : Outcome Value) =
      .ok (if lifted then .null else .bool (op.holdsOfNulls both)) :=
    congrArg Except.ok (QueryOp.compareNulls_binaryOp hbop hop both lifted)
  obtain ⟨a, ha, hm⟩ := hl.exists_value
  obtain ⟨b, hb, hn⟩ := hr.exists_value
  rw [eval_mkBinary hlogical, ha, Outcome.ok_bind, hb, Outcome.ok_bind, happly]
  rcases hm with ⟨rfl, rfl⟩ | ⟨m, hm, rfl, rfl⟩ <;> rcases hn with ⟨rfl, rfl⟩ | ⟨n, hn, rfl, rfl⟩
  · exact hnulls true
  · exact hnulls false
  · exact hnulls false
  · show bop.compareValues _ _ lifted = .ok (.bool (op.holds (Ord.compare m n)))
    rw [← QueryOp.holds_binaryOp hbop hop]
    cases op <;> first | (cases hop; done) | (cases hbop; rfl)

/-- Arithmetic has the type of its left operand, with null where one of its operands has. -/
theorem nonNullable_binaryType {a b : HostType} (hlogical : bop.isLogical = false)
    (hcomparison : bop.isComparison = false) (ha : a.nonNullable.nonNullable = a.nonNullable) (lifted : Bool) :
    (binaryType bop a b lifted).nonNullable = a.nonNullable := by
  rw [binaryType, hlogical, hcomparison, if_neg Bool.false_ne_true, if_neg Bool.false_ne_true]
  split_ifs
  · rw [HostType.nonNullable_toNullable, ha]
  · rfl

/-- Arithmetic on integers has their type, with null where one of them has. -/
theorem nonNullable_type_arithmetic (ht : l.type.nonNullable = .int w) (hbop : op.binaryOp? = some bop)
    (hop : op.isArithmetic = true) : (mkBinary bop l r false).type.nonNullable = .int w := by
  have hcomparison := (QueryOp.isComparison_binaryOp hbop).trans (QueryOp.isComparison_of_isArithmetic hop)
  have hkind : l.type.nonNullable.nonNullable = l.type.nonNullable := by
    rw [ht]
    rfl
  exact (nonNullable_binaryType (QueryOp.isLogical_binaryOp hbop (.inl hop)) hcomparison hkind false).trans ht

/-- **Arithmetic on integers is exact**, or fails. -/
theorem HasInt.arithmetic [External] (hl : l.HasInt env w m) (hr : r.HasInt env w n) (hw : w ≠ .uint64)
    (hbop : op.binaryOp? = some bop) (hop : op.isArithmetic = true) :
    ((mkBinary bop l r false).eval env).IsOrFails (op.computed? w m n) := by
  have hlogical := QueryOp.isLogical_binaryOp hbop (.inl hop)
  have hcomparison := (QueryOp.isComparison_binaryOp hbop).trans (QueryOp.isComparison_of_isArithmetic hop)
  have htype : (binaryType bop l.type r.type false).nonNullable = .int w :=
    nonNullable_type_arithmetic (r := r) hl.1 hbop hop
  have happly (a b : Value) : bop.apply a b false (binaryType bop l.type r.type false) =
      if a.isNull || b.isNull then .ok .null else bop.arithmetic a b (.int w) := by
    rw [BinaryOp.apply, hlogical, hcomparison, htype]
    rfl
  obtain ⟨a, ha, hm⟩ := hl.exists_value
  obtain ⟨b, hb, hn⟩ := hr.exists_value
  rw [eval_mkBinary hlogical, ha, Outcome.ok_bind, hb, Outcome.ok_bind, happly]
  rcases hm with ⟨rfl, rfl⟩ | ⟨m, hm, rfl, rfl⟩ <;> rcases hn with ⟨rfl, rfl⟩ | ⟨n, hn, rfl, rfl⟩
  · rfl
  · rfl
  · rfl
  · have hexact := QueryOp.integers?_binaryOp hbop (hm.natAbs_le hw) (hn.natAbs_le hw)
    have harithmetic : bop.arithmetic (.int ⟨w, m, hm⟩) (.int ⟨w, n, hn⟩) (.int w) =
        match op.result? m n with
        | some k => orFail (.overflow k (.int w)) ((SizedInt.ofInt? w k).map .int)
        | none => EvalError.fail (.arithmetic bop (.int ⟨w, m, hm⟩) (.int ⟨w, n, hn⟩)) := by
      rw [← hexact]
      cases op <;> first | (cases hop; done) | (cases hbop; rfl)
    show Outcome.IsOrFails (((op.result? m n).bind (SizedInt.ofInt? w)).map .int) (bop.arithmetic _ _ _)
    rw [harithmetic]
    cases op.result? m n with
    | none => exact ⟨_, rfl, rfl⟩
    | some k =>
      show Outcome.IsOrFails ((SizedInt.ofInt? w k).map .int) (orFail _ ((SizedInt.ofInt? w k).map .int))
      cases SizedInt.ofInt? w k with
      | none => exact ⟨_, rfl, rfl⟩
      | some k => rfl

end Expr

/-! ## The common width -/

namespace Bind

variable {l r : Expr} {u w : IntWidth}

theorem numericRank_le_one (hu : u ≠ .uint64) : numericRank (.int u) ≤ 1 := by
  cases u <;> first | decide | exact absurd rfl hu

/-- The wider of two integer types is one of 32 or 64 bits, which holds the integers of both. -/
theorem exists_wider_int (hu : u ≠ .uint64) (hw : w ≠ .uint64) :
    ∃ t : IntWidth, wider (.int u) (.int w) = .int t ∧ t ≠ .uint64 ∧ (∀ n, u.Holds n → t.Holds n) ∧
      ∀ n, w.Holds n → t.Holds n := by
  rw [wider_eq]
  have hrank := Nat.max_le.mpr ⟨numericRank_le_one hu, numericRank_le_one hw⟩
  have hleft := Nat.le_max_left (numericRank (.int u)) (numericRank (.int w))
  have hright := Nat.le_max_right (numericRank (.int u)) (numericRank (.int w))
  generalize max (numericRank (.int u)) (numericRank (.int w)) = rank at hrank hleft hright ⊢
  obtain ⟨t, ht, hne⟩ : ∃ t, ofRank rank = .int t ∧ t ≠ .uint64 := by
    match rank, hrank with
    | 0, _ => exact ⟨.int32, rfl, by decide⟩
    | 1, _ => exact ⟨.int64, rfl, by decide⟩
  exact ⟨t, ht, hne, fun n hn => holds_ofRank hn hleft ht, fun n hn => holds_ofRank hn hright ht⟩

/-- What an operand on one side is brought to: of a type that both sides get, with the same integer, or null,
and the same error. -/
structure Lifts [External] (target : HostType) (w t : IntWidth) (x y : Expr) : Prop where
  kind : target.nonNullable = .int t
  type : y.type = target
  isNullConst : x.isNullConst = false → y.isNullConst = false
  hasInt {env : Env} {n : Option Int} : x.HasInt env w n → y.HasInt env t n
  error {env : Env} {err : Error} : x.eval env = .error err → y.eval env = .error err

theorem Lifts.refl [External] {x : Expr} {w : IntWidth} (hx : x.type.nonNullable = .int w) :
    Lifts x.type w w x x :=
  ⟨hx, rfl, id, id, id⟩

theorem lifts_convertTo [External] {x : Expr} {target : HostType} {w t : IntWidth}
    (ht : target.nonNullable = .int t)
    (hfits : ∀ n, w.Holds n → t.Holds n) (hnull : x.type.isNullable = true → target.isNullable = true) :
    Lifts target w t x (x.convertTo target) where
  kind := ht
  type := x.type_convertTo target
  isNullConst h := by rw [Expr.isNullConst_convertTo, h, Bool.and_false]
  hasInt h := h.convertTo ht hfits hnull
  error h := Expr.eval_convertTo_of_error h target

/-- Integers of two types are brought to the wider one, with null if one of them may be. -/
theorem exists_promote_of_type_ne (hl : l.type.nonNullable = .int u) (hr : r.type.nonNullable = .int w)
    (hne : l.type ≠ r.type) :
    ∃ target, promote l r = .ok (l.convertTo target, r.convertTo target) ∧
      target = if l.type.isNullableValueType || r.type.isNullableValueType then
        (wider (.int u) (.int w)).toNullable else wider (.int u) (.int w) := by
  have hnumeric {a : HostType} {v : IntWidth} (h : a.nonNullable = .int v) : a.isNumeric = true :=
    HostType.isNumeric_iff.mpr (.inl ⟨v, h⟩)
  have hobject : (l.type.isObject || r.type.isObject) = false := by
    rw [HostType.isObject_of_isNumeric (hnumeric hl), HostType.isObject_of_isNumeric (hnumeric hr)]
    rfl
  have hmeet : meet? l.type r.type = some (wider (.int u) (.int w)) := by
    unfold meet?
    rw [hnumeric hl, hnumeric hr, hl, hr]
    rfl
  unfold promote
  rw [if_neg hne, hobject, if_neg Bool.false_ne_true, hmeet]
  exact ⟨_, rfl, rfl⟩

/-- **Integers are brought to a common width**, whatever their values are. -/
theorem exists_promote_int [External] (hl : l.type.nonNullable = .int u) (hr : r.type.nonNullable = .int w)
    (hu : u ≠ .uint64) (hw : w ≠ .uint64) :
    ∃ p target t, promote l r = .ok p ∧ t ≠ .uint64 ∧ Lifts target u t l p.1 ∧ Lifts target w t r p.2 := by
  by_cases hsame : l.type = r.type
  · obtain rfl : u = w := by
      rw [hsame, hr] at hl
      cases hl
      rfl
    refine ⟨(l, r), l.type, u, if_pos hsame, hu, .refl hl, ?_⟩
    rw [hsame]
    exact .refl hr
  · obtain ⟨t, ht, hne, hleft, hright⟩ := exists_wider_int hu hw
    obtain ⟨target, hp, htarget⟩ := exists_promote_of_type_ne hl hr hsame
    rw [ht] at htarget
    have hnullable {a : HostType} {v : IntWidth} (h : a.nonNullable = .int v) (hnull : a.isNullable = true) :
        a.isNullableValueType = true :=
      HostType.isNullableValueType_of_isValueType hnull (by rw [h]; rfl)
    have hkind : target.nonNullable = .int t := by
      rw [htarget]
      split_ifs <;> rfl
    have hnull (h : (l.type.isNullableValueType || r.type.isNullableValueType) = true) :
        target.isNullable = true := by
      rw [htarget, if_pos h]
      rfl
    refine ⟨_, target, t, hp, hne, lifts_convertTo hkind hleft fun h => hnull ?_,
      lifts_convertTo hkind hright fun h => hnull ?_⟩
    · rw [hnullable hl h, Bool.true_or]
    · rw [hnullable hr h, Bool.or_true]

end Bind

/-! ## Operators of queries -/

namespace Context

variable {ctx : Context} {op : QueryOp} {bop : BinaryOp} {l r : Expr} {u w : IntWidth}

/-- Operands that are neither values of enumerations nor the literal null are operands as they are. -/
theorem binary_of_plain (hbop : op.binaryOp? = some bop) (hlogical : bop.isLogical = false)
    (hlt : l.type.asEnum? = none) (hrt : r.type.asEnum? = none) (hlc : l.isNullConst = false)
    (hrc : r.isNullConst = false) :
    ctx.binary op l r =
      if bop.isComparison then ctx.comparison bop l r
      else Bind.promote l r >>= fun p => .ok (ctx.operation bop p.1 p.2) := by
  have henums : Bind.unifyEnums l r = .ok (l, r) := by
    simp only [Bind.unifyEnums, hlt, hrt]
    rfl
  have hnulls : Bind.unifyNulls l r = (l, r) := by
    simp only [Bind.unifyNulls, hlc, hrc]
  simp only [binary, hbop, henums, Outcome.ok_bind, hnulls, hlogical, Bool.false_eq_true, if_false]
  rfl

section Integers

variable (hl : l.type.nonNullable = .int u) (hr : r.type.nonNullable = .int w)
include hl hr

/-- Neither keys nor an order of texts stand between integers and a comparison. -/
theorem comparison_of_int (bop : BinaryOp) : ctx.comparison bop l r =
    Bind.promote l r >>= fun p => .ok (ctx.operation bop p.1 p.2) := by
  have hkey : Bind.TimeKey.forTypes? l.type r.type = none := by
    have hdate (v : IntWidth) : (HostType.int v).isDateFamily = false := rfl
    have htime (v : IntWidth) : (HostType.int v).isTimeFamily = false := rfl
    simp [Bind.TimeKey.forTypes?, hl, hr, hdate, htime]
  have hordinal : Bind.ordinal? bop l r = none := by
    have hbytes : l.type.isBytes = false := by
      cases ht : l.type <;> rw [ht] at hl <;> first | rfl | cases hl
    have hstring : l.type.isString = false := by
      cases ht : l.type <;> rw [ht] at hl <;> first | rfl | cases hl
    simp [Bind.ordinal?, hbytes, hstring]
  simp only [comparison, hkey, hordinal]
  rfl

/-- An operator on two integers is applied once they have a common width. -/
theorem binary_of_int (hbop : op.binaryOp? = some bop) (hlogical : bop.isLogical = false)
    (hlc : l.isNullConst = false) (hrc : r.isNullConst = false) :
    ctx.binary op l r = Bind.promote l r >>= fun p => .ok (ctx.operation bop p.1 p.2) := by
  have henum {t : HostType} {v : IntWidth} (h : t.nonNullable = .int v) : t.asEnum? = none := by
    unfold HostType.asEnum?
    rw [h]
  rw [binary_of_plain hbop hlogical (henum hl) (henum hr) hlc hrc, comparison_of_int hl hr, ite_self]

end Integers

variable {target : HostType} {t : IntWidth} {p : Expr × Expr} {env : Env} {m n : Option Int}

/-- A comparison of integers that have a common width is lifted wherever one of them may be null. -/
theorem eval_operation_comparison [External] (hlift : Bind.Lifts target u t l p.1)
    (hrift : Bind.Lifts target w t r p.2)
    (hlc : l.isNullConst = false) (hrc : r.isNullConst = false) (hbop : op.binaryOp? = some bop)
    (hop : op.isComparison = true) (hm : l.HasInt env u m) (hn : r.HasInt env w n) :
    (ctx.operation bop p.1 p.2).eval env = .ok (op.compared ctx.settings.nullPropagation m n) := by
  have hml := hlift.hasInt hm
  have hnr := hrift.hasInt hn
  have hcomparison := (QueryOp.isComparison_binaryOp hbop).trans hop
  unfold operation
  rw [hcomparison, hlift.isNullConst hlc, hrift.isNullConst hrc, hlift.type, hrift.type,
    hml.compare hnr hbop hop]
  have hlifted (h : target.isNullable = true) : (true && ctx.settings.nullPropagation &&
      target.isNullableValueType && target.isNullableValueType && !false && !false) =
        ctx.settings.nullPropagation := by
    have hvalue : target.nonNullable.isValueType = true := by
      rw [hlift.kind]
      rfl
    rw [HostType.isNullableValueType_of_isValueType h hvalue]
    simp
  cases m with
  | none => rw [hlifted (hlift.type ▸ hml.2.1)]
  | some m =>
    cases n with
    | none => rw [hlifted (hrift.type ▸ hnr.2.1)]
    | some n => rfl

/-- A comparison of integers is bound, and never fails. -/
theorem exists_integer_comparison [External] (ctx : Context) (hl : l.type.nonNullable = .int u)
    (hr : r.type.nonNullable = .int w)
    (hu : u ≠ .uint64) (hw : w ≠ .uint64) (hlc : l.isNullConst = false) (hrc : r.isNullConst = false)
    (hop : op.isComparison = true) :
    ∃ e, ctx.binary op l r = .ok e ∧ ∀ env m n, l.HasInt env u m → r.HasInt env w n →
      e.eval env = .ok (op.compared ctx.settings.nullPropagation m n) := by
  obtain ⟨bop, hbop⟩ := QueryOp.exists_binaryOp (.inr hop)
  obtain ⟨p, target, t, hp, -, hlift, hrift⟩ := Bind.exists_promote_int hl hr hu hw
  refine ⟨ctx.operation bop p.1 p.2, ?_, fun env m n hm hn =>
    eval_operation_comparison hlift hrift hlc hrc hbop hop hm hn⟩
  rw [binary_of_int hl hr hbop (QueryOp.isLogical_binaryOp hbop (.inr hop)) hlc hrc, hp, Outcome.ok_bind]

/-- Arithmetic on integers is bound, and is exact or fails. -/
theorem exists_integer_arithmetic [External] (ctx : Context) (hl : l.type.nonNullable = .int u)
    (hr : r.type.nonNullable = .int w)
    (hu : u ≠ .uint64) (hw : w ≠ .uint64) (hlc : l.isNullConst = false) (hrc : r.isNullConst = false)
    (hop : op.isArithmetic = true) :
    ∃ e t, ctx.binary op l r = .ok e ∧ e.type.nonNullable = .int t ∧
      ∀ env m n, l.HasInt env u m → r.HasInt env w n → (e.eval env).IsOrFails (op.computed? t m n) := by
  obtain ⟨bop, hbop⟩ := QueryOp.exists_binaryOp (.inl hop)
  obtain ⟨p, target, t, hp, ht, hlift, hrift⟩ := Bind.exists_promote_int hl hr hu hw
  have hoperation : ctx.operation bop p.1 p.2 = .mkBinary bop p.1 p.2 false := by
    rw [operation, QueryOp.isComparison_binaryOp hbop, QueryOp.isComparison_of_isArithmetic hop]
    rfl
  refine ⟨.mkBinary bop p.1 p.2 false, t, ?_, ?_, fun env m n hm hn =>
    (hlift.hasInt hm).arithmetic (hrift.hasInt hn) ht hbop hop⟩
  · rw [binary_of_int hl hr hbop (QueryOp.isLogical_binaryOp hbop (.inl hop)) hlc hrc, hp, Outcome.ok_bind,
      hoperation]
  · exact Expr.nonNullable_type_arithmetic (hlift.type ▸ hlift.kind) hbop hop

end Context

/-- **Operators on integers are exact or fail**: every operator of arithmetic and every comparison takes two operands
of integer types, with null or not. Arithmetic gives null with a null operand, the exact result where the type
of the operation holds that, and an error of range where it does not. A comparison never fails: it is that of the
numbers, and with a null operand it is null with null propagation, and that of nulls without. -/
theorem integer_operators_are_exact [External] {ctx : Context} {op : QueryOp} {l r : Expr} {u w : IntWidth}
    (hop : op.isArithmetic = true ∨ op.isComparison = true) (hl : l.type.nonNullable = .int u)
    (hr : r.type.nonNullable = .int w) (hu : u ≠ .uint64) (hw : w ≠ .uint64) (hlc : l.isNullConst = false)
    (hrc : r.isNullConst = false) :
    ∃ e, ctx.binary op l r = .ok e ∧
      (op.isArithmetic = true → ∃ t, e.type.nonNullable = .int t ∧
        ∀ s env a b, l.HasValue s env a → r.HasValue s env b →
          (e.eval env).IsOrFails (op.computed? t a.asInt? b.asInt?)) ∧
      (op.isComparison = true → ∀ s env a b, l.HasValue s env a → r.HasValue s env b →
        e.eval env = .ok (op.compared ctx.settings.nullPropagation a.asInt? b.asInt?)) := by
  rcases hop with hop | hop
  · obtain ⟨e, t, he, htype, heval⟩ :=
      Context.exists_integer_arithmetic ctx hl hr hu hw hlc hrc hop
    refine ⟨e, he, fun _ => ⟨t, htype, fun s env a b ha hb => ?_⟩, fun h => ?_⟩
    · exact heval env _ _ (ha.hasInt hl) (hb.hasInt hr)
    · rw [QueryOp.isComparison_of_isArithmetic hop] at h
      cases h
  · obtain ⟨e, he, heval⟩ := Context.exists_integer_comparison ctx hl hr hu hw hlc hrc hop
    refine ⟨e, he, fun h => ?_, fun _ s env a b ha hb => ?_⟩
    · rw [QueryOp.isComparison_of_isArithmetic h] at hop
      cases hop
    · exact heval env _ _ (ha.hasInt hl) (hb.hasInt hr)

/-- A stock, a number of 64 bits that may be missing. -/
def stock : Expr := .param ⟨1, "stock", (HostType.int .int64).toNullable⟩

/-- Twice a stock is null if it is missing, a number if it is small, and an error if it is large; and it is not below
nothing. -/
theorem integer_operators_are_exact_on_stocks :
    (∃ e, plainContext.binary .mul stock (.mkConst (.int32 2)) = .ok e ∧
      e.eval [(1, .null)] = .ok .null ∧ e.eval [(1, .int64 (-21))] = .ok (.int64 (-42)) ∧
      ∃ err, e.eval [(1, .int64 9223372036854775807)] = .error err ∧ err.isRangeError = true) ∧
    ∃ e, plainContext.binary .lt stock (.mkConst (.int32 2)) = .ok e ∧
      e.eval [(1, .null)] = .ok .null ∧ e.eval [(1, .int64 (-21))] = .ok (.bool true) := by
  have htwo (env : Env) : (Expr.mkConst (.int32 2)).HasValue .empty env (.int32 2) := ⟨rfl, rfl⟩
  have hstock (v : Value) (hv : Schema.empty.admits stock.type v = true) :
      stock.HasValue .empty [(1, v)] v := ⟨rfl, hv⟩
  constructor
  · obtain ⟨e, he, harithmetic, -⟩ := @integer_operators_are_exact _ plainContext .mul stock (.mkConst (.int32 2))
      .int64 .int32 (.inl rfl) rfl rfl (by decide) (by decide) rfl rfl
    obtain ⟨t, htype, heval⟩ := harithmetic rfl
    cases he
    cases htype
    have hgives (v : Value) (o : Option Value) (hv : Schema.empty.admits stock.type v = true)
        (ho : QueryOp.mul.computed? .int64 v.asInt? (Value.int32 2).asInt? = o) :=
      ho ▸ heval _ _ _ _ (hstock v hv) (htwo _)
    exact ⟨_, rfl, hgives .null (some .null) rfl rfl, hgives (.int64 (-21)) (some (.int64 (-42))) rfl rfl,
      hgives (.int64 9223372036854775807) none rfl rfl⟩
  · obtain ⟨e, he, -, hcomparison⟩ := @integer_operators_are_exact _ plainContext .lt stock (.mkConst (.int32 2))
      .int64 .int32 (.inr rfl) rfl rfl (by decide) (by decide) rfl rfl
    exact ⟨e, he, hcomparison rfl _ _ _ _ (hstock .null rfl) (htwo _),
      hcomparison rfl _ _ _ _ (hstock (.int64 (-21)) rfl) (htwo _)⟩

end TypedQuery
