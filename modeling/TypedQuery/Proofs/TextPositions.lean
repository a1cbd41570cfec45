import Mathlib.Tactic.Common
import TypedQuery.Eval.Scalar

/-!
# Places among bytes and among characters

A text is searched as bytes, and places in it are counted in characters. In UTF-8 the first byte of a character is never
one that follows another, so that the bytes of a part stand only where a character begins. The byte at which a part is
found is therefore a place at which the text can be cut, and what is cut off has as many characters as stand before the
first place of the part.

* `Text.indexFrom?_eq_some_iff`: the first place of a part in a list.
* `Text.encode_prefix_iff`: some characters start with others if their bytes do.
* `Text.exists_take_of_firstByte`: a character begins where a first byte stands.
* **`Text.find?_eq`**: the byte of a part is that of its first character.
* **`ScalarFunction.positionOf_eq`**: the position of a part counts the characters before it.
-/

namespace TypedQuery

namespace Text

/-! ## Places in a list -/

section Places

variable {α : Type} [BEq α] [LawfulBEq α] {part l : List α} {i n : Nat}

/-- Places are counted from where the search begins. -/
theorem indexFrom?_eq_some_iff : indexFrom? part i l = some n ↔
    ∃ m, n = i + m ∧ m ≤ l.length ∧ part <+: l.drop m ∧ ∀ j < m, ¬ part <+: l.drop j := by
  induction l generalizing i with
  | nil =>
    cases part <;> simp [indexFrom?, eq_comm]
  | cons a rest ih =>
    rw [indexFrom?]
    by_cases hpart : part <+: a :: rest
    · rw [if_pos (List.isPrefixOf_iff_prefix.mpr hpart)]
      constructor
      · rintro ⟨⟩
        exact ⟨0, rfl, Nat.zero_le _, hpart, nofun⟩
      · rintro ⟨m, rfl, -, -, hfirst⟩
        cases m with
        | zero => rfl
        | succ m => exact absurd hpart (hfirst 0 (Nat.succ_pos m))
    · rw [if_neg fun h => hpart (List.isPrefixOf_iff_prefix.mp h), ih]
      constructor
      · rintro ⟨m, rfl, hle, hfound, hfirst⟩
        refine ⟨m + 1, by omega, Nat.succ_le_succ hle, hfound, fun j hj => ?_⟩
        cases j with
        | zero => exact hpart
        | succ j => exact hfirst j (Nat.lt_of_succ_lt_succ hj)
      · rintro ⟨m, rfl, hle, hfound, hfirst⟩
        cases m with
        | zero => exact absurd hfound hpart
        | succ m =>
          exact ⟨m, by omega, Nat.le_of_succ_le_succ hle, hfound, fun j hj => hfirst (j + 1) (Nat.succ_lt_succ hj)⟩

/-- A part that stands somewhere has a first place. -/
theorem exists_indexFrom? (hle : n ≤ l.length) (hfound : part <+: l.drop n) (i : Nat) :
    ∃ m, indexFrom? part i l = some m := by
  induction l generalizing n i with
  | nil =>
    obtain rfl : part = [] := by simpa using hfound
    exact ⟨i, rfl⟩
  | cons a rest ih =>
    rw [indexFrom?]
    split_ifs with hpart
    · exact ⟨i, rfl⟩
    · cases n with
      | zero => exact absurd (List.isPrefixOf_iff_prefix.mpr hfound) hpart
      | succ n => exact ih (Nat.le_of_succ_le_succ hle) hfound (i + 1)

end Places

theorem isWithin_iff {part bs : List UInt8} :
    isWithin part bs = true ↔ ∃ n ≤ bs.length, part <+: bs.drop n := by
  induction bs with
  | nil => simp [isWithin]
  | cons b rest ih =>
    rw [isWithin, Bool.or_eq_true, List.isPrefixOf_iff_prefix, ih]
    constructor
    · rintro (hpart | ⟨n, hle, hfound⟩)
      · exact ⟨0, Nat.zero_le _, hpart⟩
      · exact ⟨n + 1, Nat.succ_le_succ hle, hfound⟩
    · rintro ⟨n, hle, hfound⟩
      cases n with
      | zero => exact .inl hfound
      | succ n => exact .inr ⟨n, Nat.le_of_succ_le_succ hle, hfound⟩

/-! ## Characters and their bytes -/

variable {s t : String} {part cs : List Char} {n m : Nat}

theorem encode_cons (c : Char) (cs : List Char) : encode (c :: cs) = String.utf8EncodeChar c ++ encode cs :=
  List.flatMap_cons

theorem encode_append (cs ds : List Char) : encode (cs ++ ds) = encode cs ++ encode ds := List.flatMap_append

/-- **Some characters start with others** if their bytes do. -/
theorem encode_prefix_iff : encode part <+: encode cs ↔ part <+: cs := by
  constructor
  · rintro ⟨rest, h⟩
    refine List.isPrefix_of_utf8Encode_append_eq_utf8Encode rest.toByteArray ?_
    change (encode part).toByteArray ++ rest.toByteArray = (encode cs).toByteArray
    rw [← List.toByteArray_append, h]
  · rintro ⟨rest, rfl⟩
    rw [encode_append]
    exact List.prefix_append ..

theorem encode_inj : encode part = encode cs ↔ part = cs := by
  refine ⟨fun h => ?_, congrArg encode⟩
  have hprefix : part <+: cs := encode_prefix_iff.mp (h ▸ List.prefix_rfl)
  have hprefix' : cs <+: part := encode_prefix_iff.mp (h ▸ List.prefix_rfl)
  exact hprefix.eq_of_length_le hprefix'.length_le

/-- The bytes before the `m`-th character. -/
def width (cs : List Char) (m : Nat) : Nat := (encode (cs.take m)).length

theorem encode_drop (cs : List Char) (m : Nat) : (encode cs).drop (width cs m) = encode (cs.drop m) := by
  have hsplit : encode cs = encode (cs.take m) ++ encode (cs.drop m) := by
    rw [← encode_append, List.take_append_drop]
  rw [hsplit, width, List.drop_left]

theorem width_succ (c : Char) (cs : List Char) (m : Nat) : width (c :: cs) (m + 1) = c.utf8Size + width cs m := by
  rw [width, List.take_succ_cons, encode_cons, List.length_append, String.length_utf8EncodeChar, width]

theorem width_le (cs : List Char) (m : Nat) : width cs m ≤ (encode cs).length := by
  rw [width]
  exact (encode_prefix_iff.mpr (List.take_prefix m cs)).length_le

theorem width_lt_width (hm : m ≤ cs.length) (hn : n < m) : width cs n < width cs m := by
  induction cs generalizing n m with
  | nil =>
    obtain rfl : m = 0 := Nat.le_zero.mp hm
    cases hn
  | cons c cs ih =>
    obtain ⟨m, rfl⟩ := Nat.exists_eq_succ_of_ne_zero (Nat.ne_zero_of_lt hn)
    rw [width_succ]
    cases n with
    | zero => exact Nat.add_pos_left c.utf8Size_pos _
    | succ n =>
      rw [width_succ]
      exact Nat.add_lt_add_left (ih (Nat.le_of_succ_le_succ hm) (Nat.lt_of_succ_lt_succ hn)) _

/-- **A character begins where a first byte stands**: what follows in a character is never a first byte. -/
theorem exists_take_of_firstByte {h : n < (encode cs).length} (hfirst : (encode cs)[n].IsUTF8FirstByte) :
    ∃ m ≤ cs.length, n = width cs m := by
  induction cs generalizing n with
  | nil => cases h
  | cons c cs ih =>
    simp only [encode_cons] at h hfirst
    by_cases hn : n < (String.utf8EncodeChar c).length
    · rw [List.getElem_append_left hn] at hfirst
      exact ⟨0, Nat.zero_le _, UInt8.isUTF8FirstByte_getElem_utf8EncodeChar.mp hfirst⟩
    · have hle := Nat.not_lt.mp hn
      rw [List.getElem_append_right hle] at hfirst
      obtain ⟨m, hm, hrest⟩ := ih hfirst
      refine ⟨m + 1, Nat.succ_le_succ hm, ?_⟩
      rw [width_succ, ← String.length_utf8EncodeChar]
      omega

/-- **The bytes of a part stand where its characters do.** -/
theorem encode_prefix_drop_iff (hpart : part ≠ []) : encode part <+: (encode cs).drop n ↔
    ∃ m ≤ cs.length, n = width cs m ∧ part <+: cs.drop m := by
  constructor
  · intro h
    obtain ⟨c, rest, rfl⟩ := List.exists_cons_of_ne_nil hpart
    -- the byte at the place is the first one of the part, hence that of a character
    have hpos : 0 < (String.utf8EncodeChar c).length := List.length_pos_iff.mpr String.utf8EncodeChar_ne_nil
    have hc : String.utf8EncodeChar c <+: (encode cs).drop n := by
      rw [encode_cons] at h
      exact (List.prefix_append ..).trans h
    have hn : n < (encode cs).length := by
      have hlength := hc.length_le
      rw [List.length_drop] at hlength
      omega
    have hbyte : (encode cs)[n] = (String.utf8EncodeChar c)[0] := by
      rw [hc.getElem hpos, List.getElem_drop]
      rfl
    have hfirst : (encode cs)[n].IsUTF8FirstByte := by
      rw [hbyte]
      exact UInt8.isUTF8FirstByte_getElem_utf8EncodeChar.mpr rfl
    obtain ⟨m, hm, rfl⟩ := exists_take_of_firstByte hfirst
    rw [encode_drop, encode_prefix_iff] at h
    exact ⟨m, hm, rfl, h⟩
  · rintro ⟨m, -, rfl, h⟩
    rwa [encode_drop, encode_prefix_iff]

/-! ## The place of a part -/

/-- The number of the character at which `part` first stands in `s`. -/
def charPlace? (s part : String) : Option Nat := indexFrom? part.toList 0 s.toList

/-- **The first place of a part**: the part begins there, and not before. -/
theorem charPlace?_eq_some_iff : charPlace? s t = some n ↔
    n ≤ s.length ∧ t.toList <+: s.toList.drop n ∧ ∀ j < n, ¬ t.toList <+: s.toList.drop j := by
  rw [charPlace?, indexFrom?_eq_some_iff, String.length_toList]
  simp

/-- **The byte of a part** is the one at which its first character stands. -/
theorem find?_eq (s t : String) : find? s t = (charPlace? s t).map (width s.toList) := by
  by_cases ht : t.toList = []
  · have hzero {α : Type} [BEq α] (l : List α) : indexFrom? [] 0 l = some 0 := by cases l <;> rfl
    rw [find?, charPlace?, bytes, ht, encode, List.flatMap_nil, hzero, hzero]
    rfl
  · cases hplace : charPlace? s t with
    | none =>
      cases hbyte : find? s t with
      | none => rfl
      | some n =>
        obtain ⟨_, -, -, hfound, -⟩ := indexFrom?_eq_some_iff.mp hbyte
        obtain ⟨m, hm, -, hfound⟩ := (encode_prefix_drop_iff ht).mp hfound
        obtain ⟨k, hk⟩ := exists_indexFrom? hm hfound 0
        exact absurd (hk.symm.trans hplace) nofun
    | some m =>
      obtain ⟨hm, hfound, hfirst⟩ := charPlace?_eq_some_iff.mp hplace
      refine indexFrom?_eq_some_iff.mpr ⟨_, (Nat.zero_add _).symm, width_le .., ?_, fun j hj hbytes => ?_⟩
      · rw [bytes, bytes, encode_drop]
        exact encode_prefix_iff.mpr hfound
      · obtain ⟨k, hk, rfl, hchars⟩ := (encode_prefix_drop_iff ht).mp hbytes
        refine hfirst k ?_ hchars
        by_contra hle
        obtain hlt | rfl := Nat.lt_or_eq_of_le (Nat.not_lt.mp hle)
        · exact Nat.lt_asymm hj (width_lt_width hk hlt)
        · exact Nat.lt_irrefl _ hj

/-- **A text contains a part** if that has a place in it. -/
theorem contains_iff_isSome : contains s t = true ↔ (charPlace? s t).isSome = true := by
  rw [contains, isWithin_iff]
  constructor
  · rintro ⟨n, hle, hfound⟩
    obtain ⟨m, hm⟩ := exists_indexFrom? hle hfound 0
    rw [← Option.isSome_map (f := width s.toList), ← find?_eq]
    exact Option.isSome_of_eq_some hm
  · intro h
    obtain ⟨m, hm⟩ := Option.isSome_iff_exists.mp h
    obtain ⟨-, hfound, -⟩ := charPlace?_eq_some_iff.mp hm
    refine ⟨width s.toList m, width_le .., ?_⟩
    rw [bytes, bytes, encode_drop]
    exact encode_prefix_iff.mpr hfound

theorem startsWith_iff_begins : startsWith s t = true ↔ t.toList <+: s.toList := by
  rw [startsWith, List.isPrefixOf_iff_prefix]
  exact encode_prefix_iff

theorem endsWith_iff_suffix : endsWith s t = true ↔ t.toList <:+ s.toList := by
  rw [endsWith, List.isSuffixOf_iff_suffix]
  constructor
  · intro h
    by_cases ht : t.toList = []
    · rw [ht]
      exact List.nil_suffix
    · have hdrop := List.suffix_iff_eq_drop.mp h
      have hprefix : bytes t <+: (bytes s).drop ((bytes s).length - (bytes t).length) :=
        ⟨[], (List.append_nil _).trans hdrop⟩
      obtain ⟨m, -, hm, -⟩ := (encode_prefix_drop_iff ht).mp hprefix
      rw [hm, bytes, bytes, encode_drop, encode_inj] at hdrop
      rw [hdrop]
      exact List.drop_suffix ..
  · rintro ⟨rest, h⟩
    rw [bytes, bytes, ← h, encode_append]
    exact List.suffix_append ..

/-- A text can be cut where a character begins. -/
theorem charsWithin?_width (hm : m ≤ cs.length) : charsWithin? cs (width cs m) = some (cs.take m) := by
  induction cs generalizing m with
  | nil =>
    obtain rfl : m = 0 := Nat.le_zero.mp hm
    rfl
  | cons c cs ih =>
    cases m with
    | zero => rfl
    | succ m =>
      obtain ⟨k, hk⟩ := Nat.exists_eq_succ_of_ne_zero (Nat.ne_of_gt c.utf8Size_pos)
      have hsize : width (c :: cs) (m + 1) = (k + width cs m) + 1 := by
        rw [width_succ, hk]
        omega
      rw [hsize, charsWithin?, if_pos (by omega), show k + width cs m + 1 - c.utf8Size = width cs m by omega,
        ih (Nat.le_of_succ_le_succ hm)]
      rfl

/-- The text before the byte of a character is that of the characters before it. -/
theorem before?_width (hm : m ≤ s.length) : before? s (width s.toList m) = some (String.ofList (s.toList.take m)) := by
  rw [before?, charsWithin?_width (by rwa [String.length_toList])]
  rfl

/-- The place of a part as the function of places gives it, -1 for none. -/
def place (s part : String) : Int := (charPlace? s part).elim (-1) Nat.cast

end Text

/-- **The position of a part** counts the characters before its first place, and the search never ends inside a
character. -/
theorem ScalarFunction.positionOf_eq (s part : String) :
    positionOf s part = .ok (.int32 (Text.place s part)) := by
  unfold positionOf Text.place
  rw [Text.find?_eq]
  cases hplace : Text.charPlace? s part with
  | none => rfl
  | some m =>
    have hm := (Text.charPlace?_eq_some_iff.mp hplace).1
    simp only [Option.map_some, Text.before?_width hm, orAbort, Except.map, Option.elim_some,
      String.length_ofList, List.length_take, String.length_toList, Nat.min_eq_left hm]

end TypedQuery
