import Mathlib.Data.List.Nodup
import Mathlib.Data.List.Perm.Subperm
import TypedQuery.Proofs.Frame
import TypedQuery.Value.Order

/-!
# Equality of values

Equality of values is an equivalence. The entries of records and dictionaries may stand in any order,
and an entry is looked up by its name, so that this needs names to be given once.

* **`Value.beq_refl`**, **`Value.beq_symm`**, **`Value.beq_trans`**.
-/

namespace TypedQuery

namespace Value

/-! ## Equality of parts -/

attribute [local simp] itemsBeq entriesBeq slotsBeq memberBeq beq

theorem itemsBeq_iff {as bs : List Value} :
    itemsBeq as bs = true ↔ List.Forall₂ (fun a b => beq a b = true) as bs := by
  induction as generalizing bs with
  | nil => cases bs <;> simp
  | cons a as ih => cases bs <;> simp [ih]

theorem slotsBeq_iff {as bs : List (String × Value)} :
    slotsBeq as bs = true ↔ List.Forall₂ (fun a b => a.1 = b.1 ∧ beq a.2 b.2 = true) as bs := by
  induction as generalizing bs with
  | nil => cases bs <;> simp
  | cons a as ih => cases bs <;> simp [ih, and_assoc]

theorem entriesBeq_iff {as bs : List (String × Value)} :
    entriesBeq as bs = true ↔ ∀ e ∈ as, ∃ b, Entries.get? bs e.1 = some b ∧ beq e.2 b = true := by
  induction as with
  | nil => simp
  | cons e as ih =>
    obtain ⟨n, a⟩ := e
    rw [entriesBeq, Bool.and_eq_true, ih, List.forall_mem_cons]
    cases Entries.get? bs n <;> simp

theorem wrapperBeq_iff {w w' : Wrapper Value} :
    beq (.wrapper w) (.wrapper w') = true ↔ w.kind = w'.kind ∧
      ∀ m, Option.Rel (fun a b => beq a b = true) (w.get? m) (w'.get? m) := by
  have hmember (x y : Option Value) :
      memberBeq x y = true ↔ Option.Rel (fun a b => beq a b = true) x y := by
    cases x <;> cases y <;> simp [Option.rel_none_none, Option.rel_some_some]
  obtain ⟨k, g, c, s, i, m⟩ := w
  obtain ⟨k', g', c', s', i', m'⟩ := w'
  simp only [beq, Bool.and_eq_true, hmember, beq_iff_eq]
  constructor
  · rintro ⟨⟨⟨⟨⟨hk, hg⟩, hc⟩, hs⟩, hi⟩, hm⟩
    refine ⟨hk, fun member => ?_⟩
    cases member <;> assumption
  · rintro ⟨hk, h⟩
    exact ⟨⟨⟨⟨⟨hk, h .groupByContainer⟩, h .container⟩, h .source⟩, h .inst⟩, h .model⟩

/-! ## Equivalence -/

section Parts

variable {α : Type} {R : α → α → Prop} {as bs cs : List α}

theorem forall₂_symm (h : List.Forall₂ R as bs) (hR : ∀ a ∈ as, ∀ b ∈ bs, R a b → R b a) :
    List.Forall₂ R bs as := by
  induction h with
  | nil => exact .nil
  | cons hab _ ih =>
    refine .cons (hR _ List.mem_cons_self _ List.mem_cons_self hab) (ih fun a ha b hb => ?_)
    exact hR a (List.mem_cons_of_mem _ ha) b (List.mem_cons_of_mem _ hb)

theorem forall₂_trans (hab : List.Forall₂ R as bs) (hbc : List.Forall₂ R bs cs)
    (hR : ∀ a ∈ as, ∀ b c, R a b → R b c → R a c) : List.Forall₂ R as cs := by
  induction hab generalizing cs with
  | nil => exact hbc
  | cons hab _ ih =>
    cases hbc with
    | cons hbc hrest =>
      exact .cons (hR _ List.mem_cons_self _ _ hab hbc)
        (ih hrest fun a ha => hR a (List.mem_cons_of_mem _ ha))

theorem optionRel_symm {x y : Option α} (h : Option.Rel R x y)
    (hR : ∀ a b, x = some a → y = some b → R a b → R b a) : Option.Rel R y x := by
  cases h with
  | none => exact .none
  | some hab => exact .some (hR _ _ rfl rfl hab)

theorem optionRel_trans {x y z : Option α} (hxy : Option.Rel R x y) (hyz : Option.Rel R y z)
    (hR : ∀ a b c, x = some a → R a b → R b c → R a c) : Option.Rel R x z := by
  cases hxy with
  | none => exact hyz
  | some hab =>
    cases hyz with
    | some hbc => exact .some (hR _ _ _ rfl hab hbc)

end Parts

theorem entriesBeq_refl {es : List (String × Value)} (hnames : (Entries.names es).Nodup)
    (h : ∀ e ∈ es, beq e.2 e.2 = true) : entriesBeq es es = true :=
  entriesBeq_iff.mpr fun e he => ⟨e.2, Entries.get?_of_mem hnames he, h e he⟩

/-- Entries of as many names, each given once, that are all found in others are all that there are
in the others. -/
theorem entriesBeq_symm {as bs : List (String × Value)} (ha : (Entries.names as).Nodup)
    (hb : (Entries.names bs).Nodup) (hlength : as.length = bs.length)
    (hsymm : ∀ e ∈ as, ∀ b, (e.1, b) ∈ bs → beq e.2 b = true → beq b e.2 = true)
    (h : entriesBeq as bs = true) : entriesBeq bs as = true := by
  rw [entriesBeq_iff] at h
  have hsub : Entries.names as ⊆ Entries.names bs := by
    intro n hn
    obtain ⟨e, he, rfl⟩ := List.mem_map.mp hn
    obtain ⟨b, hb, -⟩ := h e he
    exact List.mem_map.mpr ⟨_, Entries.mem_of_get? hb, rfl⟩
  have hperm : (Entries.names as).Perm (Entries.names bs) := by
    refine (ha.subperm hsub).perm_of_length_le ?_
    simp [Entries.names, hlength]
  refine entriesBeq_iff.mpr fun e he => ?_
  have hname : e.1 ∈ Entries.names as := hperm.mem_iff.mpr (List.mem_map_of_mem he)
  obtain ⟨a, hmem, hname⟩ := List.mem_map.mp hname
  obtain ⟨b, hget, hbeq⟩ := h a hmem
  rw [hname, Entries.get?_of_mem hb he] at hget
  cases hget
  refine ⟨a.2, ?_, hsymm a hmem e.2 (hname ▸ he) hbeq⟩
  rw [← hname]
  exact Entries.get?_of_mem ha hmem

theorem entriesBeq_trans {as bs cs : List (String × Value)}
    (htrans : ∀ e ∈ as, ∀ b c, beq e.2 b = true → beq b c = true → beq e.2 c = true)
    (hab : entriesBeq as bs = true) (hbc : entriesBeq bs cs = true) : entriesBeq as cs = true := by
  rw [entriesBeq_iff] at hab hbc ⊢
  intro e he
  obtain ⟨b, hb, heb⟩ := hab e he
  obtain ⟨c, hc, hbc⟩ := hbc _ (Entries.mem_of_get? hb)
  exact ⟨c, hc, htrans e he b c heb hbc⟩

/-- **Equality is reflexive.** -/
theorem beq_refl {v : Value} (h : v.WellFormed) : beq v v = true := by
  induction h with
  | @scalar v hv => cases v <;> first | simp; done | cases hv
  | record hnames _ ih => simp [entriesBeq_refl hnames ih]
  | collection _ ih => exact itemsBeq_iff.mpr (List.forall₂_same.mpr ih)
  | grouping _ _ ihkey ih => simp [ihkey, itemsBeq_iff.mpr (List.forall₂_same.mpr ih)]
  | dictionary hnames _ ih => simp [entriesBeq_refl hnames ih]
  | container _ ih =>
    exact slotsBeq_iff.mpr (List.forall₂_same.mpr fun s hs => ⟨rfl, ih s hs⟩)
  | @wrapper w _ ih =>
    refine wrapperBeq_iff.mpr ⟨rfl, fun m => ?_⟩
    cases hm : w.get? m with
    | none => exact .none
    | some a => exact .some (ih m a hm)

theorem isScalar_of_beq {a b : Value} (h : beq a b = true) : a.isScalar = b.isScalar := by
  unfold beq at h
  split at h <;> first | rfl | cases h

/-- Scalars are equal by what they hold: equality goes back, and on. -/
theorem beq_scalar {a b : Value} (ha : a.isScalar = true) (h : beq a b = true) :
    beq b a = true ∧ ∀ c, beq b c = true → beq a c = true := by
  unfold beq at h
  split at h <;> first | cases ha; done | cases h; done | skip
  all_goals refine ⟨by simp_all, fun c hc => ?_⟩
  all_goals cases c <;> simp_all

/-- **Equality is symmetric.** -/
theorem beq_symm {a b : Value} (ha : a.WellFormed) (hb : b.WellFormed) (h : beq a b = true) :
    beq b a = true := by
  have hscalar := isScalar_of_beq h
  induction ha generalizing b with
  | scalar hs => exact (beq_scalar hs h).1
  | record hnames _ ih =>
    cases hb with
    | record hnames' hfields' =>
      simp only [beq, Bool.and_eq_true, beq_iff_eq] at h ⊢
      obtain ⟨⟨htype, hlength⟩, hentries⟩ := h
      exact ⟨⟨htype.symm, hlength.symm⟩, entriesBeq_symm hnames hnames' hlength
        (fun e he b hb hbeq => ih e he (hfields' _ hb) hbeq (isScalar_of_beq hbeq)) hentries⟩
    | scalar hs => rw [hs] at hscalar; cases hscalar
    | _ => cases h
  | collection _ ih =>
    cases hb with
    | collection hitems' =>
      simp only [beq, itemsBeq_iff] at h ⊢
      exact forall₂_symm h fun a ha b hb hab => ih a ha (hitems' b hb) hab (isScalar_of_beq hab)
    | scalar hs => rw [hs] at hscalar; cases hscalar
    | _ => cases h
  | grouping _ _ ihkey ih =>
    cases hb with
    | grouping hkey' hitems' =>
      simp only [beq, Bool.and_eq_true, itemsBeq_iff] at h ⊢
      exact ⟨ihkey hkey' h.1 (isScalar_of_beq h.1),
        forall₂_symm h.2 fun a ha b hb hab => ih a ha (hitems' b hb) hab (isScalar_of_beq hab)⟩
    | scalar hs => rw [hs] at hscalar; cases hscalar
    | _ => cases h
  | dictionary hnames _ ih =>
    cases hb with
    | dictionary hnames' hentries' =>
      simp only [beq, Bool.and_eq_true, beq_iff_eq] at h ⊢
      exact ⟨h.1.symm, entriesBeq_symm hnames hnames' h.1
        (fun e he b hb hbeq => ih e he (hentries' _ hb) hbeq (isScalar_of_beq hbeq)) h.2⟩
    | scalar hs => rw [hs] at hscalar; cases hscalar
    | _ => cases h
  | container _ ih =>
    cases hb with
    | container hslots' =>
      simp only [beq, slotsBeq_iff] at h ⊢
      exact forall₂_symm h fun a ha b hb hab =>
        ⟨hab.1.symm, ih a ha (hslots' b hb) hab.2 (isScalar_of_beq hab.2)⟩
    | scalar hs => rw [hs] at hscalar; cases hscalar
    | _ => cases h
  | wrapper _ ih =>
    cases hb with
    | wrapper hmembers' =>
      rw [wrapperBeq_iff] at h ⊢
      exact ⟨h.1.symm, fun m => optionRel_symm (h.2 m) fun a b ha hb hab =>
        ih m a ha (hmembers' m b hb) hab (isScalar_of_beq hab)⟩
    | scalar hs => rw [hs] at hscalar; cases hscalar
    | _ => cases h

/-- **Equality is transitive.** -/
theorem beq_trans {a b c : Value} (ha : a.WellFormed) (hab : beq a b = true) (hbc : beq b c = true) :
    beq a c = true := by
  induction ha generalizing b c with
  | scalar hs => exact (beq_scalar hs hab).2 c hbc
  | record _ _ ih =>
    cases b <;> try cases hab
    cases c <;> try cases hbc
    simp only [beq, Bool.and_eq_true, beq_iff_eq] at hab hbc ⊢
    exact ⟨⟨hab.1.1.trans hbc.1.1, hab.1.2.trans hbc.1.2⟩,
      entriesBeq_trans (fun e he b c => ih e he) hab.2 hbc.2⟩
  | collection _ ih =>
    cases b <;> try cases hab
    cases c <;> try cases hbc
    simp only [beq, itemsBeq_iff] at hab hbc ⊢
    exact forall₂_trans hab hbc fun a ha b c => ih a ha
  | grouping _ _ ihkey ih =>
    cases b <;> try cases hab
    cases c <;> try cases hbc
    simp only [beq, Bool.and_eq_true, itemsBeq_iff] at hab hbc ⊢
    exact ⟨ihkey hab.1 hbc.1, forall₂_trans hab.2 hbc.2 fun a ha b c => ih a ha⟩
  | dictionary _ _ ih =>
    cases b <;> try cases hab
    cases c <;> try cases hbc
    simp only [beq, Bool.and_eq_true, beq_iff_eq] at hab hbc ⊢
    exact ⟨hab.1.trans hbc.1, entriesBeq_trans (fun e he b c => ih e he) hab.2 hbc.2⟩
  | container _ ih =>
    cases b <;> try cases hab
    cases c <;> try cases hbc
    simp only [beq, slotsBeq_iff] at hab hbc ⊢
    exact forall₂_trans hab hbc fun a ha b c hab hbc =>
      ⟨hab.1.trans hbc.1, ih a ha hab.2 hbc.2⟩
  | wrapper _ ih =>
    cases b <;> try cases hab
    cases c <;> try cases hbc
    rw [wrapperBeq_iff] at hab hbc ⊢
    exact ⟨hab.1.trans hbc.1, fun m => optionRel_trans (hab.2 m) (hbc.2 m) fun a b c ha =>
      ih m a ha⟩

/-! ## Equality across numeric kinds -/

theorem looselyEquals_int (m n : SizedInt) :
    (Value.int m).looselyEquals (.int n) = decide (m.val = n.val) := by
  have hcompare : (Value.int m).compare? (.int n) = some (compare m.val n.val) := rfl
  have hloose : (Value.int m).looselyEquals (.int n) = ((Value.int m).compare? (.int n) == some .eq) := rfl
  rw [hloose, hcompare, Bool.eq_iff_iff]
  simp

end Value

end TypedQuery
