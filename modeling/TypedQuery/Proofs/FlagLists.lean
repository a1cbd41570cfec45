import Mathlib.Data.List.TakeWhile
import TypedQuery.Proofs.EnumLiterals
import TypedQuery.Proofs.Existence
import TypedQuery.Proofs.FlattenedRows

/-!
# Lists of flags

The members of an enumeration whose members combine are listed with commas between them and white space around
them. A list of names, in any order and with repetitions, spells the union of their bits, and a value has the
flags of the list if it has each of them: the text is cut at the commas and the pieces are trimmed, whatever was
trimmed off the whole text before, and no text with a comma is a number.

* `Text.map_trimChars_splitChars`: a text is trimmed before it is cut, or its pieces are after.
* `EnumType.Listable`: enumerations whose members can be listed; `EnumType.Flag`: a member in a list.
* **`EnumType.parse?_listed`**: a list spells a union.
* `hasBits_unionOf`: the bits of a union.
* **`listed_flags_are_tested_together`**: the test of a list and those of its members.
-/

namespace TypedQuery

/-! ## Trimmed pieces -/

namespace Text

variable {sep : Char} {cs before after : List Char}

/-- White space in front of a text is not a piece of it, if pieces do not end there. -/
theorem splitChars_before (h : sep ∉ before) (cs : List Char) :
    ∃ piece pieces, splitChars sep cs = piece :: pieces ∧
      splitChars sep (before ++ cs) = (before ++ piece) :: pieces := by
  induction before with
  | nil =>
    obtain ⟨piece, pieces, hcs⟩ := List.exists_cons_of_ne_nil (splitChars_ne_nil sep cs)
    exact ⟨piece, pieces, hcs, hcs⟩
  | cons c before ih =>
    rw [List.mem_cons, not_or] at h
    obtain ⟨piece, pieces, hcs, hbefore⟩ := ih h.2
    refine ⟨piece, pieces, hcs, ?_⟩
    rw [List.cons_append, splitChars, hbefore]
    simp [Ne.symm h.1]

theorem splitChars_after (h : sep ∉ after) (cs : List Char) :
    ∃ pieces piece, splitChars sep cs = pieces ++ [piece] ∧
      splitChars sep (cs ++ after) = pieces ++ [piece ++ after] := by
  induction cs with
  | nil => exact ⟨[], [], rfl, splitChars_of_not_mem h⟩
  | cons c rest ih =>
    obtain ⟨pieces, piece, hrest, hafter⟩ := ih
    rw [List.cons_append, splitChars, splitChars, hrest, hafter]
    cases pieces with
    | nil =>
      by_cases hc : (c == sep) = true
      · exact ⟨[[]], piece, by simp [hc], by simp [hc]⟩
      · exact ⟨[], c :: piece, by simp [hc], by simp [hc]⟩
    | cons first others =>
      by_cases hc : (c == sep) = true
      · exact ⟨[] :: first :: others, piece, by simp [hc], by simp [hc]⟩
      · exact ⟨(c :: first) :: others, piece, by simp [hc], by simp [hc]⟩

theorem trimStart_before (h : ∀ c ∈ before, isBlank c = true) (cs : List Char) :
    trimStart (before ++ cs) = trimStart cs := List.dropWhile_append_of_pos h

theorem trimStart_eq_nil (h : ∀ c ∈ cs, isBlank c = true) : trimStart cs = [] := List.dropWhile_eq_nil_iff.mpr h

theorem trimChars_before (h : ∀ c ∈ before, isBlank c = true) (cs : List Char) :
    trimChars (before ++ cs) = trimChars cs := by
  rw [trimChars, trimStart_before h, trimChars]

theorem trimChars_after (h : ∀ c ∈ after, isBlank c = true) (cs : List Char) :
    trimChars (cs ++ after) = trimChars cs := by
  unfold trimChars
  by_cases hcs : trimStart cs = []
  · have hblank : ∀ c ∈ cs, isBlank c = true := List.dropWhile_eq_nil_iff.mp hcs
    rw [hcs, trimStart_before hblank, trimStart_eq_nil h]
  · have happend : trimStart (cs ++ after) = trimStart cs ++ after := by
      unfold trimStart at hcs ⊢
      rw [List.dropWhile_append, if_neg (by simpa using hcs)]
    rw [happend, List.reverse_append, trimStart_before fun c hc => h c (List.mem_reverse.mp hc)]

/-- What is trimmed off a text is white space. -/
theorem exists_trimmed (cs : List Char) :
    ∃ before after, (∀ c ∈ before, isBlank c = true) ∧ (∀ c ∈ after, isBlank c = true) ∧
      cs = before ++ (trimChars cs ++ after) := by
  have blank (cs : List Char) : ∀ c ∈ cs.takeWhile isBlank, isBlank c = true :=
    List.all_eq_true.mp List.all_takeWhile
  refine ⟨cs.takeWhile isBlank, ((trimStart cs).reverse.takeWhile isBlank).reverse, blank cs,
    fun c hc => blank _ c (List.mem_reverse.mp hc), ?_⟩
  rw [trimChars, ← List.reverse_append]
  unfold trimStart
  rw [List.takeWhile_append_dropWhile, List.reverse_reverse, List.takeWhile_append_dropWhile]

theorem mem_trimChars {c : Char} (hc : isBlank c = false) (hmem : c ∈ cs) : c ∈ trimChars cs := by
  obtain ⟨before, after, hbefore, hafter, hcs⟩ := exists_trimmed cs
  rw [hcs, List.mem_append, List.mem_append] at hmem
  rcases hmem with h | h | h
  · rw [hbefore c h] at hc
    cases hc
  · exact h
  · rw [hafter c h] at hc
    cases hc

/-- **A text is trimmed before it is cut, or its pieces are after.** -/
theorem map_trimChars_splitChars (hsep : isBlank sep = false) (cs : List Char) :
    (splitChars sep (trimChars cs)).map trimChars = (splitChars sep cs).map trimChars := by
  obtain ⟨before, after, hbefore, hafter, hcs⟩ := exists_trimmed cs
  have apart {blanks : List Char} (h : ∀ c ∈ blanks, isBlank c = true) : sep ∉ blanks := by
    intro hmem
    rw [h sep hmem] at hsep
    cases hsep
  obtain ⟨first, rest, htrimmed, hfirst⟩ := splitChars_before (apart hbefore) (trimChars cs ++ after)
  obtain ⟨pieces, last, hpieces, hlast⟩ := splitChars_after (apart hafter) (trimChars cs)
  conv_rhs => rw [hcs, hfirst, List.map_cons, trimChars_before hbefore, ← List.map_cons, ← htrimmed, hlast]
  rw [hpieces, List.map_append, List.map_append, List.map_singleton, List.map_singleton, trimChars_after hafter]

end Text

/-! ## Numbers -/

/-- No text with a comma is a number. -/
theorem EnumType.number?_of_comma {text : String} (h : ',' ∈ text.toList) : EnumType.number? text = none := by
  have hsign : ',' ∈ (Number.splitSign text.toList).2 := by
    generalize text.toList = cs at h
    unfold Number.splitSign
    split <;> simp_all
  have hread : Number.readInt? text = none := by
    unfold Number.readInt?
    dsimp only
    rw [if_neg]
    rintro ⟨-, hdigits⟩
    have hcomma := List.all_eq_true.mp hdigits ',' hsign
    cases hcomma
  rw [EnumType.number?, hread]
  rfl

/-! ## Listed members -/

namespace EnumType

/-- The members of an enumeration combine, and can be told apart in a list. -/
structure Listable (e : EnumType) : Prop where
  isFlags : e.isFlags = true
  noComma : ∀ m ∈ e.members, ',' ∉ m.1.toList
  trimmed : ∀ m ∈ e.members, Text.trim m.1 = m.1
  noNumber : ∀ m ∈ e.members, number? m.1 = none

/-- A member as it stands in a list, with white space around it. -/
structure Flag (e : EnumType) where
  before : String
  name : String
  after : String
  value : Int64
  isMember : e.valueOf? name = some value
  blankBefore : ∀ c ∈ before.toList, Text.isBlank c = true
  blankAfter : ∀ c ∈ after.toList, Text.isBlank c = true

variable {e : EnumType}

/-- The member with the white space around it. -/
def Flag.text (f : e.Flag) : String := f.before ++ f.name ++ f.after

/-- The member alone. -/
def Flag.alone (f : e.Flag) : e.Flag :=
  { f with before := "", after := "", blankBefore := nofun, blankAfter := nofun }

/-- Members with commas between them. -/
def listed (flags : List e.Flag) : String := Text.joinWith "," (flags.map Flag.text)

/-- The bits of the members. -/
def unionOf (flags : List e.Flag) : Int64 := (flags.map Flag.value).foldl (· ||| ·) 0

theorem Flag.mem_members (f : e.Flag) : (f.name, f.value) ∈ e.members := by
  obtain ⟨before, after, hmembers, -⟩ := List.lookup_eq_some_iff.mp f.isMember
  rw [hmembers]
  exact List.mem_append_right _ List.mem_cons_self

theorem Flag.listed_alone (f : e.Flag) : listed [f.alone] = f.name := by
  simp [listed, Text.joinWith, Flag.text, Flag.alone]

theorem Flag.unionOf_alone (f : e.Flag) : unionOf [f.alone] = f.value := by
  simp [unionOf, Flag.alone]

theorem union?_of_pieces {flags : List e.Flag} {pieces : List (List Char)}
    (h : pieces.map Text.trimChars = flags.map fun f => f.name.toList) :
    e.union? pieces = some (unionOf flags) := by
  unfold union? unionOf
  generalize (0 : Int64) = bits
  induction flags generalizing pieces bits with
  | nil =>
    obtain rfl := List.map_eq_nil_iff.mp h
    rfl
  | cons f rest ih =>
    obtain ⟨piece, pieces, rfl, hpiece, hpieces⟩ := List.map_eq_cons_iff.mp h
    rw [List.foldlM_cons, hpiece, String.ofList_toList, f.isMember]
    exact ih hpieces _

variable (he : e.Listable)
include he

theorem Flag.noComma (f : e.Flag) : ',' ∉ f.text.toList := by
  have blank {text : String} (h : ∀ c ∈ text.toList, Text.isBlank c = true) : ',' ∉ text.toList :=
    fun hmem => by cases h ',' hmem
  rw [Flag.text, String.toList_append, String.toList_append, List.mem_append, List.mem_append, not_or, not_or]
  exact ⟨⟨blank f.blankBefore, he.noComma _ f.mem_members⟩, blank f.blankAfter⟩

/-- A member is read as it is named. -/
theorem Flag.trimChars_text (f : e.Flag) : Text.trimChars f.text.toList = f.name.toList := by
  have hname : Text.trimChars f.name.toList = f.name.toList := by
    have h := congrArg String.toList (he.trimmed _ f.mem_members)
    rwa [Text.trim, String.toList_ofList] at h
  rw [Flag.text, String.toList_append, String.toList_append, Text.trimChars_after f.blankAfter,
    Text.trimChars_before f.blankBefore, hname]

/-- The pieces of a list are its members. -/
theorem splitChars_listed {flags : List e.Flag} (hne : flags ≠ []) :
    (Text.splitChars ',' (listed flags).toList).map Text.trimChars = flags.map fun f => f.name.toList := by
  have hsep : "," = String.singleton ',' := rfl
  rw [listed, hsep, Text.splitChars_joinWith (by simpa using hne)]
  · rw [List.map_map, List.map_map]
    exact List.map_congr_left fun f _ => f.trimChars_text he
  · intro piece hpiece
    obtain ⟨f, -, rfl⟩ := List.mem_map.mp hpiece
    exact f.noComma he

/-- **A list spells the union of its members.** -/
theorem parse?_listed {flags : List e.Flag} (hne : flags ≠ []) :
    e.parse? (listed flags) = some (unionOf flags) := by
  unfold parse?
  dsimp only
  match flags with
  | [] => contradiction
  | [f] =>
    have htrim : Text.trim (listed [f]) = f.name := by
      show Text.trim f.text = f.name
      rw [Text.trim, f.trimChars_text he, String.ofList_toList]
    have hcomma : f.name.toList.contains ',' = false := by
      simpa using he.noComma _ f.mem_members
    rw [htrim, he.noNumber _ f.mem_members, hcomma, Bool.and_false, if_neg Bool.false_ne_true, f.isMember, unionOf]
    simp
  | f :: g :: rest =>
    have hlisted : ',' ∈ (listed (f :: g :: rest)).toList := by
      simp [listed, Text.joinWith]
    have hcomma : ',' ∈ (Text.trim (listed (f :: g :: rest))).toList := by
      rw [Text.trim, String.toList_ofList]
      exact Text.mem_trimChars rfl hlisted
    have hblank : Text.isBlank ',' = false := rfl
    have hpieces := Text.map_trimChars_splitChars hblank (listed (f :: g :: rest)).toList
    rw [splitChars_listed he hne] at hpieces
    rw [number?_of_comma hcomma, he.isFlags, Bool.true_and, if_pos (by simpa using hcomma)]
    refine union?_of_pieces ?_
    rwa [Text.trim, String.toList_ofList]

end EnumType

/-! ## Bits -/

theorem and_or_eq_iff {w : Nat} (v a b : BitVec w) : v &&& (a ||| b) = a ||| b ↔ v &&& a = a ∧ v &&& b = b := by
  simp only [BitVec.eq_of_getLsbD_eq_iff, BitVec.getLsbD_and, BitVec.getLsbD_or]
  grind

theorem hasBits_or (n : Int) (a b : Int64) :
    hasBits n (a ||| b).toInt = (hasBits n a.toInt && hasBits n b.toInt) := by
  have hunion : BitVec.ofInt 128 (a ||| b).toInt = BitVec.ofInt 128 a.toInt ||| BitVec.ofInt 128 b.toInt := by
    show ((a ||| b).toBitVec).signExtend 128 = a.toBitVec.signExtend 128 ||| b.toBitVec.signExtend 128
    rw [Int64.toBitVec_or, BitVec.signExtend_or]
  rw [Bool.eq_iff_iff, Bool.and_eq_true, hasBits, hasBits, hasBits, hunion, beq_iff_eq, beq_iff_eq, beq_iff_eq]
  exact and_or_eq_iff _ _ _

/-- **A value has the bits of a union if it has those of each member.** -/
theorem hasBits_unionOf {e : EnumType} (n : Int) (flags : List e.Flag) :
    hasBits n (EnumType.unionOf flags).toInt = flags.all fun f => hasBits n f.value.toInt := by
  have hfold (bits : Int64) : hasBits n ((flags.map EnumType.Flag.value).foldl (· ||| ·) bits).toInt =
      (hasBits n bits.toInt && flags.all fun f => hasBits n f.value.toInt) := by
    induction flags generalizing bits with
    | nil => simp
    | cons f rest ih => rw [List.map_cons, List.foldl_cons, ih, hasBits_or, Bool.and_assoc, List.all_cons]
  have hzero : hasBits n (0 : Int64).toInt = true := by
    simp [hasBits]
  rw [EnumType.unionOf, hfold, hzero, Bool.true_and]

/-! ## Tests -/

/-- A test of a value that is there. -/
theorem Expr.eval_hasFlag [External] {ctx : Context} {x literal : Expr} {env : Env} {name : String}
    {v n : Int64} {t : HostType}
    {e : EnumType} (hv : x.eval env = .ok (.enum name v)) (hliteral : literal.IsLiteral (.enum e.name n) t) :
    (ctx.guardIfNeeded x (.mkScalar .hasFlag [x, literal])).eval env = .ok (.bool (hasBits v.toInt n.toInt)) := by
  have hcall : (mkScalar .hasFlag [x, literal]).eval env = .ok (.bool (hasBits v.toInt n.toInt)) := by
    rw [eval_mkScalar_pair, hv, eval_of_constValue? hliteral.constValue]
    rfl
  rw [eval_guardIfNeeded hv rfl rfl fun u hu => ?_, hcall]
  rw [hcall] at hu
  cases hu
  exact .of_isInstanceOf rfl

/-- A test for what a literal spells, a text or a value of the enumeration. -/
theorem Node.exists_bind_has [External] {ctx : Context} {e : EnumType}
    (he : ctx.schema.enum? e.name = some e) {operand : Node}
    {x : Expr} (hx : (operand.bind ctx.deeper).1 = .ok x) (henum : x.type.asEnum? = some e)
    {type : Option LogicalType} (htype : ctx.Declares type) {spell : String → Literal}
    (hspell : spell = .string ∨ spell = .enum e.name) {t : String} {n : Int64} (hparse : e.parse? t = some n) :
    ∃ test, ((Node.binary .has operand (.constant (spell t) type)).bind ctx).1 = .ok test ∧
      ∀ env name v, x.eval env = .ok (.enum name v) → test.eval env = .ok (.bool (hasBits v.toInt n.toInt)) := by
  have hframe := operand.bind_keeps ctx.deeper
  have htype := htype.deeper.frame hframe
  have hschema : (operand.bind ctx.deeper).2.schema.enum? e.name = some e := by
    rw [hframe.schema]
    exact he
  obtain ⟨text, literal, c, htext, hliteral, htextual, hnamed⟩ :=
    bind_spellings (depth_after hx) htype htype hschema hparse
  obtain ⟨a, b, ha, hb, hab⟩ := c.hasFlag_spellings (V := fun _ => True) henum hparse htextual hnamed
  have hbeval {env : Env} {name : String} {v : Int64} (hv : x.eval env = .ok (.enum name v)) :
      b.eval env = .ok (.bool (hasBits v.toInt n.toInt)) := by
    rw [c.hasFlag_literal henum hnamed] at hb
    cases hb
    exact Expr.eval_hasFlag hv hnamed
  rcases hspell with rfl | rfl
  · refine ⟨a, ?_, fun env name v hv => (hab.eval env trivial).trans (hbeval hv)⟩
    rw [bind_binary hx (congrArg Prod.fst htext), htext]
    exact ha
  · refine ⟨b, ?_, fun env name v hv => hbeval hv⟩
    rw [bind_binary hx (congrArg Prod.fst hliteral), hliteral]
    exact hb

/-- **Lists of flags mean the union of their flags.** For an enumeration whose members can be listed, and every list
of them that is not empty: its text spells the bits of all its members; and next to an operand of the enumeration,
the test of the list is bound and so is that of each member, spelled as texts or as values of the enumeration, and
where the operand has a value, the test of the list is true just if those of all its members are. -/
theorem listed_flags_are_tested_together [External] {e : EnumType} (he : e.Listable) {flags : List e.Flag}
    (hne : flags ≠ []) :
    e.parse? (EnumType.listed flags) = some (EnumType.unionOf flags) ∧
      ∀ {ctx : Context} {operand : Node} {x : Expr} {type : Option LogicalType} {spell : String → Literal},
        ctx.schema.enum? e.name = some e → (operand.bind ctx.deeper).1 = .ok x → x.type.asEnum? = some e →
        ctx.Declares type → spell = .string ∨ spell = .enum e.name →
        ∃ (all : Expr) (each : e.Flag → Expr),
          ((Node.binary .has operand (.constant (spell (EnumType.listed flags)) type)).bind ctx).1 = .ok all ∧
          (∀ f, ((Node.binary .has operand (.constant (spell f.name) type)).bind ctx).1 = .ok (each f)) ∧
          ∀ env name v, x.eval env = .ok (.enum name v) →
            ∃ b, all.eval env = .ok (.bool b) ∧ (b = true ↔ ∀ f ∈ flags, (each f).eval env = .ok (.bool true)) := by
  have hparse := EnumType.parse?_listed he hne
  refine ⟨hparse, fun hschema hx henum htype hspell => ?_⟩
  obtain ⟨all, hall, hallEval⟩ := Node.exists_bind_has hschema hx henum htype hspell hparse
  have hsingle (f : e.Flag) : e.parse? f.name = some f.value := by
    rw [← f.listed_alone, EnumType.parse?_listed he (by simp), f.unionOf_alone]
  choose each heach heachEval using fun f : e.Flag =>
    Node.exists_bind_has hschema hx henum htype hspell (hsingle f)
  refine ⟨all, each, hall, heach, fun env name v hv => ⟨_, hallEval env name v hv, ?_⟩⟩
  rw [hasBits_unionOf, List.all_eq_true]
  refine forall₂_congr fun f _ => ?_
  rw [heachEval f env name v hv]
  simp

/-! ### Colors -/

/-- Two colors, one of them twice, with white space around them. -/
def mixedColors : List colorEnum.Flag :=
  [⟨" ", "Blue", "", 4, rfl, by simp [Text.isBlank], nofun⟩, ⟨"", "Red", " ", 1, rfl, nofun, by simp [Text.isBlank]⟩,
    ⟨"", "Blue", "", 4, rfl, nofun, nofun⟩]

/-- Red and blue make a color that has both flags of the list. -/
theorem listed_flags_are_tested_together_for_colors :
    colorEnum.parse? " Blue,Red ,Blue" = some 5 ∧
      ∃ (all : Expr) (each : colorEnum.Flag → Expr),
        ((Node.binary .has colorNode (.constant (.string " Blue,Red ,Blue") none)).bind colorContext).1 = .ok all ∧
        (∀ f, ((Node.binary .has colorNode (.constant (.string f.name) none)).bind colorContext).1 = .ok (each f)) ∧
        ∃ b, all.eval [(0, .enum "Color" 5)] = .ok (.bool b) ∧
          (b = true ↔ ∀ f ∈ mixedColors, (each f).eval [(0, .enum "Color" 5)] = .ok (.bool true)) := by
  have hlistable : colorEnum.Listable := ⟨rfl, by decide, by decide, by decide⟩
  have hne : mixedColors ≠ [] := by decide
  have hcolor : colorContext.schema.enum? colorEnum.name = some colorEnum := rfl
  have htype : colorContext.Declares none := ⟨none, rfl⟩
  obtain ⟨x, hx, henum, hvalue⟩ : ∃ x, (colorNode.bind colorContext.deeper).1 = .ok x ∧
      x.type.asEnum? = some colorEnum ∧ x.eval [(0, .enum "Color" 5)] = .ok (.enum "Color" 5) := ⟨_, rfl, rfl, rfl⟩
  obtain ⟨hparse, htests⟩ := listed_flags_are_tested_together hlistable hne
  obtain ⟨all, each, hall, heach, heval⟩ := htests hcolor hx henum htype (.inl rfl)
  exact ⟨hparse, all, each, hall, heach, heval _ "Color" 5 hvalue⟩

end TypedQuery
