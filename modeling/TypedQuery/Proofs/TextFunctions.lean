import Mathlib.Algebra.Group.Nat.Defs
import TypedQuery.Proofs.NullOperands
import TypedQuery.Proofs.OperatorTypes
import TypedQuery.Proofs.TextPositions

/-!
# Functions of text

The functions that search, measure, cut and join texts fit together: what one of them finds another cuts out. A text
is searched among its bytes, places and lengths count characters, and a part that is cut out ends with the text, however
long it is asked to be.

* `Text.contains_iff`, `Text.startsWith_iff`, `Text.endsWith_iff`: what is found, by the place of a part.
* `Text.slice_length_eq_iff`: what is cut out at the places of a part.
* `Expr.IsNumber`: an expression of an integer, whatever its width.
* **`text_functions_agree`**: the functions on two texts.
-/

namespace TypedQuery

/-! ## Places in a text -/

namespace Text

variable {s t : String} {n : Nat}

theorem place_eq_iff : place s t = n ↔ charPlace? s t = some n := by
  unfold place
  cases charPlace? s t with
  | none =>
    simp only [Option.elim_none, reduceCtorEq]
  | some m =>
    simp only [Option.elim_some, Option.some.injEq]
    omega

theorem neg_one_le_place (s part : String) : -1 ≤ place s part := by
  unfold place
  cases charPlace? s part with
  | none => exact Int.le_refl _
  | some n =>
    simp only [Option.elim_some]
    omega

theorem place_le (s part : String) : place s part ≤ s.length := by
  unfold place
  cases hn : charPlace? s part with
  | none =>
    simp only [Option.elim_none]
    omega
  | some n => exact Int.ofNat_le.mpr (charPlace?_eq_some_iff.mp hn).1

theorem contains_iff : contains s t = true ↔ place s t ≠ -1 := by
  rw [contains_iff_isSome, place]
  cases charPlace? s t with
  | none => simp
  | some n =>
    simp only [Option.isSome_some, Option.elim_some, ne_eq, true_iff]
    omega

theorem startsWith_iff : startsWith s t = true ↔ place s t = 0 := by
  rw [startsWith_iff_begins, show place s t = 0 ↔ _ from place_eq_iff (n := 0), charPlace?_eq_some_iff]
  simp

/-- As many characters are cut out as a part has, and they are the part where it begins. -/
theorem slice_length_eq_iff : slice s n t.length = t ↔ t.toList <+: s.toList.drop n := by
  rw [slice, List.prefix_iff_eq_take, ← String.toList_inj, String.toList_ofList, String.length_toList, eq_comm]

theorem slice_to_end (s : String) (n : Nat) : slice s n s.length = String.ofList (s.toList.drop n) := by
  rw [slice, List.take_of_length_le]
  rw [List.length_drop, String.length_toList]
  exact Nat.sub_le ..

theorem endsWith_iff :
    endsWith s t = true ↔ t.length ≤ s.length ∧ slice s (s.length - t.length) s.length = t := by
  have hlength : t.toList <:+ s.toList → t.length ≤ s.length := fun h => by
    simpa only [String.length_toList] using h.length_le
  have hsuffix : t.toList <:+ s.toList ↔ slice s (s.length - t.length) s.length = t := by
    rw [List.suffix_iff_eq_drop, slice_to_end, ← String.toList_inj, String.toList_ofList, String.length_toList,
      String.length_toList, eq_comm]
  rw [endsWith_iff_suffix, ← hsuffix]
  exact ⟨fun h => ⟨hlength h, h⟩, And.right⟩

/-- A text is what stands before a place, and what stands from it on. -/
theorem slice_append_slice (s : String) (n : Nat) : slice s 0 n ++ slice s n s.length = s := by
  rw [slice_to_end, slice, ← String.ofList_append, List.drop_zero, List.take_append_drop, String.ofList_toList]

end Text

/-! ## Functions on expressions -/

namespace Expr

variable [External]

/-- An expression of an integer, whatever its width. -/
def IsNumber (env : Env) (n : Int) (e : Expr) : Prop := ∃ v, e.eval env = .ok v ∧ v.asInt? = some n

variable {env : Env} {x y start count e : Expr} {w : IntWidth} {s t : String} {n m : Nat}

theorem IsInt.isNumber {n : Int} (h : e.IsInt env w n) : e.IsNumber env n := by
  obtain ⟨-, hn, he⟩ := h
  exact ⟨_, he, rfl⟩

section Text

variable (hx : x.eval env = .ok (.string s))
include hx

/-- A length is an integer of 32 bits if the text is not longer than those are. -/
theorem isInt_length (hs : s.length < 2 ^ 31) : (mkScalar .length [x]).IsInt env .int32 s.length := by
  have hholds : IntWidth.int32.Holds s.length := by
    constructor <;> simp only [IntWidth.least, IntWidth.greatest] <;> omega
  refine ⟨rfl, hholds, ?_⟩
  rw [eval_mkScalar, List.mapM_cons, hx, Outcome.ok_bind, ← SizedInt.int32_of_holds hholds]
  rfl

theorem eval_substring (hstart : start.IsNumber env n) :
    (mkScalar .substring [x, start]).eval env = .ok (.string (Text.slice s n s.length)) := by
  obtain ⟨v, hv, hn⟩ := hstart
  rw [eval_mkScalar_pair, hx, Outcome.ok_bind, hv, Outcome.ok_bind]
  simp [ScalarFunction.apply, ScalarFunction.text?, hn, ScalarFunction.substring?, Int.not_lt.mpr, orFail]

theorem eval_substring_of_count (hstart : start.IsNumber env n) (hcount : count.IsNumber env m) :
    (mkScalar .substring [x, start, count]).eval env = .ok (.string (Text.slice s n m)) := by
  obtain ⟨v, hv, hn⟩ := hstart
  obtain ⟨u, hu, hm⟩ := hcount
  rw [eval_mkScalar, List.mapM_cons, List.mapM_cons, List.mapM_cons, List.mapM_nil, hx, Outcome.ok_bind, hv,
    Outcome.ok_bind, hu, Outcome.ok_bind]
  simp [ScalarFunction.apply, ScalarFunction.text?, hn, hm, ScalarFunction.substring?, Int.not_lt.mpr, orFail]

end Text

section Texts

variable (hx : x.eval env = .ok (.string s)) (hy : y.eval env = .ok (.string t))
include hx hy

theorem eval_mkScalar_texts (f : ScalarFunction) :
    (mkScalar f [x, y]).eval env = f.apply [.string s, .string t] := by
  rw [eval_mkScalar_pair, hx, Outcome.ok_bind, hy, Outcome.ok_bind]

/-- A place is an integer of 32 bits. -/
theorem isInt_indexOf (hs : s.length < 2 ^ 31) :
    (mkScalar .indexOf [x, y]).IsInt env .int32 (Text.place s t) := by
  have hholds : IntWidth.int32.Holds (Text.place s t) := by
    have hleast := Text.neg_one_le_place s t
    have hgreatest := Text.place_le s t
    constructor <;> simp only [IntWidth.least, IntWidth.greatest] <;> omega
  refine ⟨rfl, hholds, ?_⟩
  rw [eval_mkScalar_texts hx hy, ← SizedInt.int32_of_holds hholds]
  exact ScalarFunction.positionOf_eq s t

/-- **What is found is cut out** at its place, and not before. -/
theorem eval_substring_at_place (hs : s.length < 2 ^ 31) (ht : t.length < 2 ^ 31) (hplace : 0 ≤ Text.place s t) :
    (mkScalar .substring [x, mkScalar .indexOf [x, y], mkScalar .length [y]]).eval env = .ok (.string t) ∧
      ∀ j k, j.IsNumber env k → 0 ≤ k → k < Text.place s t →
        ∃ u, (mkScalar .substring [x, j, mkScalar .length [y]]).eval env = .ok (.string u) ∧ u ≠ t := by
  have hlength := (isInt_length hy ht).isNumber
  have hindex := (isInt_indexOf hx hy hs).isNumber
  obtain ⟨n, hn⟩ := Int.eq_ofNat_of_zero_le hplace
  obtain ⟨-, hfound, hfirst⟩ := Text.charPlace?_eq_some_iff.mp (Text.place_eq_iff.mp hn)
  rw [hn] at hindex
  refine ⟨?_, fun j k hj hk hlt => ?_⟩
  · rw [eval_substring_of_count hx hindex hlength, Text.slice_length_eq_iff.mpr hfound]
  · obtain ⟨m, rfl⟩ := Int.eq_ofNat_of_zero_le hk
    refine ⟨_, eval_substring_of_count hx hj hlength, fun hsame => ?_⟩
    exact hfirst m (by omega) (Text.slice_length_eq_iff.mp hsame)

end Texts

/-- **A text ends with another** if that is what stands from where only its length is left. -/
theorem endsWith_iff_eval_substring (hx : x.eval env = .ok (.string s))
    (hstart : start.IsNumber env ((s.length : Int) - t.length)) : Text.endsWith s t = true ↔
      t.length ≤ s.length ∧ (mkScalar .substring [x, start]).eval env = .ok (.string t) := by
  rw [Text.endsWith_iff]
  refine and_congr_right fun hle => ?_
  rw [← Int.ofNat_sub hle] at hstart
  rw [eval_substring hx hstart, Except.ok.injEq, Value.string.injEq]

/-- **A text is put together** from what stands before a place and what stands from it on. -/
theorem eval_concat_substrings (hx : x.eval env = .ok (.string s)) {zero : Expr} (hzero : zero.IsNumber env 0)
    (hstart : start.IsNumber env n) :
    (mkScalar .concat [mkScalar .substring [x, zero, start], mkScalar .substring [x, start]]).eval env =
      .ok (.string s) := by
  rw [eval_mkScalar_texts (eval_substring_of_count hx hzero hstart) (eval_substring hx hstart)]
  show Except.ok (Value.string (Text.slice s 0 n ++ Text.slice s n s.length)) = _
  rw [Text.slice_append_slice]

end Expr

/-- **The functions of text agree.** Let two expressions give texts of fewer than 2³¹ characters. Then the first text
contains the second if and only if the place of the second is not -1. From that place on, as many characters as the
second text has are the second text, and from no place before it. The first text starts with the second if and only if
the place is 0, and it ends with the second if and only if that is not longer and stands where only its length is left.
And for every place, what stands before it and what stands from it on give the first text again. -/
theorem text_functions_agree [External] {env : Env} {x y : Expr} {s t : String}
    (hx : x.eval env = .ok (.string s))
    (hy : y.eval env = .ok (.string t)) (hs : s.length < 2 ^ 31) (ht : t.length < 2 ^ 31) :
    ∃ (contains startsWith endsWith : Bool) (i : Int),
      (Expr.mkScalar .contains [x, y]).eval env = .ok (.bool contains) ∧
      (Expr.mkScalar .startsWith [x, y]).eval env = .ok (.bool startsWith) ∧
      (Expr.mkScalar .endsWith [x, y]).eval env = .ok (.bool endsWith) ∧
      (Expr.mkScalar .indexOf [x, y]).IsNumber env i ∧ -1 ≤ i ∧
      (Expr.mkScalar .length [x]).IsNumber env s.length ∧ (Expr.mkScalar .length [y]).IsNumber env t.length ∧
      (contains = true ↔ i ≠ -1) ∧
      (0 ≤ i →
        (Expr.mkScalar .substring [x, .mkScalar .indexOf [x, y], .mkScalar .length [y]]).eval env =
            .ok (.string t) ∧
          ∀ j k, j.IsNumber env k → 0 ≤ k → k < i →
            ∃ u, (Expr.mkScalar .substring [x, j, .mkScalar .length [y]]).eval env = .ok (.string u) ∧ u ≠ t) ∧
      (startsWith = true ↔ i = 0) ∧
      (∀ start, start.IsNumber env ((s.length : Int) - t.length) → (endsWith = true ↔
        t.length ≤ s.length ∧ (Expr.mkScalar .substring [x, start]).eval env = .ok (.string t))) ∧
      ∀ zero k n, zero.IsNumber env 0 → k.IsNumber env n → 0 ≤ n →
        (Expr.mkScalar .concat [.mkScalar .substring [x, zero, k], .mkScalar .substring [x, k]]).eval env =
          .ok (.string s) := by
  refine ⟨Text.contains s t, Text.startsWith s t, Text.endsWith s t, Text.place s t,
    Expr.eval_mkScalar_texts hx hy _, Expr.eval_mkScalar_texts hx hy _, Expr.eval_mkScalar_texts hx hy _,
    (Expr.isInt_indexOf hx hy hs).isNumber, Text.neg_one_le_place s t, (Expr.isInt_length hx hs).isNumber,
    (Expr.isInt_length hy ht).isNumber, Text.contains_iff, Expr.eval_substring_at_place hx hy hs ht,
    Text.startsWith_iff, fun start hstart => Expr.endsWith_iff_eval_substring hx hstart, fun zero k n hzero hk hn => ?_⟩
  obtain ⟨m, rfl⟩ := Int.eq_ofNat_of_zero_le hn
  exact Expr.eval_concat_substrings hx hzero hk

/-- A word whose letters are not all of one byte. -/
def accented : Expr := .mkConst (.string "aéaéb")

/-- How the word ends. -/
def accentedEnd : Expr := .mkConst (.string "aéb")

/-- The end of the word stands at its third letter, is cut out from there, and is not what the word starts with. -/
theorem text_functions_agree_on_accented :
    ∃ (contains startsWith endsWith : Bool) (i : Int),
      (Expr.mkScalar .contains [accented, accentedEnd]).eval [] = .ok (.bool contains) ∧
      (Expr.mkScalar .startsWith [accented, accentedEnd]).eval [] = .ok (.bool startsWith) ∧
      (Expr.mkScalar .endsWith [accented, accentedEnd]).eval [] = .ok (.bool endsWith) ∧
      (Expr.mkScalar .indexOf [accented, accentedEnd]).IsNumber [] i ∧
      contains = true ∧ i = 2 ∧ startsWith = false ∧ endsWith = true ∧
      (Expr.mkScalar .substring [accented, .mkScalar .indexOf [accented, accentedEnd],
        .mkScalar .length [accentedEnd]]).eval [] = .ok (.string "aéb") ∧
      (Expr.mkScalar .concat [.mkScalar .substring [accented, .mkConst (.int32 0), .mkConst (.int32 2)],
        .mkScalar .substring [accented, .mkConst (.int32 2)]]).eval [] = .ok (.string "aéaéb") := by
  obtain ⟨contains, startsWith, endsWith, i, hcontains, hstarts, hends, hindex, -, -, -, hfound, hcut, hfirst, hlast,
    hjoin⟩ := @text_functions_agree _ [] accented accentedEnd _ _ rfl rfl (by decide) (by decide)
  have htwo : (Expr.mkConst (.int32 2)).IsNumber [] 2 := ⟨_, rfl, rfl⟩
  have hzero : (Expr.mkConst (.int32 0)).IsNumber [] 0 := ⟨_, rfl, rfl⟩
  obtain rfl : i = 2 := by
    obtain ⟨v, hv, hi⟩ := hindex
    obtain rfl : v = .int32 2 := (Except.ok.inj hv).symm
    exact (Option.some.inj hi).symm
  have hstart : startsWith = false := by
    rw [← Bool.not_eq_true, hfirst]
    decide
  have hend : endsWith = true := (hlast _ htwo).mpr ⟨by decide, rfl⟩
  exact ⟨contains, startsWith, endsWith, 2, hcontains, hstarts, hends, hindex, hfound.mpr (by decide), rfl, hstart,
    hend, (hcut (by decide)).1, hjoin _ _ _ hzero htwo (by decide)⟩

end TypedQuery
