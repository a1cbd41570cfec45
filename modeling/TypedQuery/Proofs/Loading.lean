import TypedQuery.Proofs.Flattening
import TypedQuery.Proofs.Rows
import TypedQuery.Proofs.TypedValues
import TypedQuery.Value.Load

/-!
# Records from documents

What a schema loads from a document has the type it is loaded as, up to two things that loading does not
ask for: that a document gives the members whose types have no null, and that what it gives as a dictionary
is an object. Both can be told from the document alone.

* `RecordType.IsProper`, `Schema.IsProper`: names that are given once, and a bag that is one of the members.
* `Schema.fills`: whether a document gives all that a type asks for.
* **`Schema.admits_load`**: a document loads to a value of the type exactly if it fills the type.
* **`loaded_records_conform`**: the members and the bag of a record from an object.
-/

namespace TypedQuery

/-! ## Proper schemas -/

/-- Whether `nullable` never stands right inside `nullable`, also in the items of collections. -/
def HostType.isNestedOnce : HostType → Bool
  | .nullable t => !t.isNullableValueType && t.isNestedOnce
  | .collection t => t.isNestedOnce
  | _ => true

/-- A record type whose members are named once and have types that are nullable at most once; its bag is
one of the members. -/
structure RecordType.IsProper (r : RecordType) : Prop where
  names : (Entries.names r.members).Nodup
  types : ∀ m ∈ r.members, m.2.isNestedOnce = true
  bag : ∀ bag, r.bag = some bag → (bag, .dictionary) ∈ r.members

/-- A schema of proper record types. -/
def Schema.IsProper (s : Schema) : Prop := ∀ e ∈ s.records, e.2.IsProper

namespace HostType

variable {t : HostType}

theorem isNullableValueType_nonNullable (h : t.isNestedOnce = true) :
    t.nonNullable.isNullableValueType = false := by
  cases t with
  | nullable t =>
    unfold isNestedOnce at h
    rw [Bool.and_eq_true, Bool.not_eq_true'] at h
    exact h.1
  | _ => rfl

theorem isNestedOnce_nonNullable (h : t.isNestedOnce = true) : t.nonNullable.isNestedOnce = true := by
  cases t with
  | nullable t =>
    unfold isNestedOnce at h
    exact (Bool.and_eq_true _ _ ▸ h).2
  | _ => exact h

end HostType

theorem Entries.nodup_insert {α : Type} {es : Entries α} (h : (Entries.names es).Nodup) (name : String)
    (a : α) : (Entries.names (Entries.insert es name a)).Nodup := by
  induction es with
  | nil => exact List.nodup_singleton name
  | cons e rest ih =>
    obtain ⟨n, b⟩ := e
    obtain ⟨hn, hrest⟩ := List.nodup_cons.mp h
    rw [Entries.insert]
    by_cases hname : n = name
    · rw [if_pos (by simpa using hname)]
      exact h
    · rw [if_neg (by simpa using hname)]
      refine List.nodup_cons.mpr ⟨fun hmem => ?_, ih hrest⟩
      obtain ⟨f, hf, rfl⟩ := List.mem_map.mp hmem
      rcases Entries.mem_insert hf with rfl | hf
      · exact hname rfl
      · exact hn (List.mem_map.mpr ⟨f, hf, rfl⟩)

theorem Entries.nodup_ofPairs {α : Type} (ps : List (String × α)) :
    (Entries.names (Entries.ofPairs ps)).Nodup := by
  have run (ps : List (String × α)) (es : Entries α) (h : (Entries.names es).Nodup) :
      (Entries.names (ps.foldl (fun es p => Entries.insert es p.1 p.2) es)).Nodup := by
    induction ps generalizing es with
    | nil => exact h
    | cons p rest ih => exact ih _ (Entries.nodup_insert h p.1 p.2)
  exact run ps [] List.nodup_nil

namespace RecordType

/-- A record type with given members is proper. -/
theorem isProper_closed (name : String) {members : List (String × HostType)}
    (h : ∀ m ∈ members, m.2.isNestedOnce = true) : (closed name members).IsProper where
  names := Entries.nodup_ofPairs members
  types := fun m hm => h m (Entries.mem_ofPairs hm)
  bag := fun bag hbag => by cases hbag

/-- A proper record type stays proper when it gets a bag. -/
theorem isProper_opened {r : RecordType} (h : r.IsProper) (bag : String) : (r.opened bag).IsProper where
  names := Entries.nodup_insert h.names bag .dictionary
  types := by
    intro m hm
    rcases Entries.mem_insert hm with rfl | hm
    · rfl
    · exact h.types m hm
  bag := by
    intro other hother
    cases hother
    refine Entries.mem_of_get? ?_
    rw [opened, Entries.get?_insert, if_pos rfl]

end RecordType

namespace Schema

theorem isProper_empty : empty.IsProper := by
  intro e he
  cases he

theorem isProper_addRecord {s : Schema} (hs : s.IsProper) {r : RecordType} (hr : r.IsProper) :
    (s.addRecord r).IsProper := by
  intro e he
  rcases Entries.mem_insert he with rfl | he
  · exact hr
  · exact hs e he

end Schema

/-! ## Documents that give all that a type asks for -/

/-- Whether the value can be the bag of a record: a dictionary or null. -/
def Value.isBag (v : Value) : Bool := v.isNull || v.isInstanceOf .dictionary

namespace Schema

/-- Whether a document is an object or null where the type is that of dictionaries. -/
def fillsAtom (j : Json) (t : HostType) : Bool :=
  t.nonNullable != .dictionary || (Value.infer j).isBag

/-- Whether a member is given what its type asks for, or not given and nullable, from the checks of the
fields that are given. -/
def fillsMember (checks : Entries (HostType → Bool)) (m : String × HostType) : Bool :=
  match Entries.get? checks m.1 with
  | some check => check m.2
  | none => m.2.isNullable

/-- The members of a record type, its bag aside. -/
def declaredMembers (r : RecordType) : Entries HostType := r.members.filter fun m => some m.1 != r.bag

/-- Whether all members of a record type, its bag aside, are given what their types ask for. -/
def fillsMembers (s : Schema) (typeName : String) (checks : Entries (HostType → Bool)) : Bool :=
  match s.record? typeName with
  | some r => (declaredMembers r).all (fillsMember checks)
  | none => true

mutual

/-- Whether a document gives all that a type asks for. -/
def fills (s : Schema) (j : Json) (t : HostType) : Bool :=
  match j with
  | .array items =>
    match t.nonNullable with
    | .collection element => fillsItems s items element
    | _ => fillsAtom (.array items) t
  | .object fields =>
    match t.nonNullable with
    | .record name => s.fillsMembers name (fillsFields s fields)
    | _ => fillsAtom (.object fields) t
  | j => fillsAtom j t
termination_by structural j

/-- Whether all items give what a type asks for. -/
def fillsItems (s : Schema) (items : List Json) (t : HostType) : Bool :=
  match items with
  | [] => true
  | j :: rest => fills s j t && fillsItems s rest t
termination_by structural items

/-- For each field, whether it gives what a type asks for. -/
def fillsFields (s : Schema) (fields : List (String × Json)) : List (String × (HostType → Bool)) :=
  match fields with
  | [] => []
  | (name, j) :: rest => (name, fun t => fills s j t) :: fillsFields s rest
termination_by structural fields

end

/-! ## Atoms -/

variable {s : Schema} {t : HostType} {v : Value}

/-- A document of a primitive type gives a value of that type. -/
theorem isInstanceOf_of_primitive? {j : Json} (h : primitive? j t = some v) :
    v.isInstanceOf t = true ∧ v.isPlain = true := by
  unfold primitive? at h
  split at h
  case h_6 =>
    split at h
    · cases h
      exact ⟨rfl, rfl⟩
    · obtain ⟨_, _, rfl⟩ := Option.map_eq_some_iff.mp h
      exact ⟨rfl, rfl⟩
    · cases h
  all_goals first
    | (obtain ⟨_, _, rfl⟩ := Option.map_eq_some_iff.mp h; exact ⟨rfl, rfl⟩)
    | (obtain ⟨_, _, h⟩ := Option.bind_eq_some_iff.mp h
       obtain ⟨_, _, rfl⟩ := Option.map_eq_some_iff.mp h
       exact ⟨rfl, rfl⟩)
    | cases h

theorem admits_dictionary (s : Schema) (ht : t.nonNullable = .dictionary) (v : Value) :
    s.admits t v = v.isBag := by
  have hnull : t.isNullable = true := by cases t <;> first | rfl | cases ht
  cases v with
  | null => exact hnull
  | record | collection =>
    simp only [admits, ht]
    rfl
  | _ =>
    simp only [admits, Value.isBag, Value.isNull, Bool.false_or]
    exact Value.isInstanceOf_congr _ ht

/-- A value that is neither a record nor a collection is one of a type if it is an instance of the type without null. -/
theorem admits_of_isInstanceOf (ht : t.isNestedOnce = true) (hv : v.isInstanceOf t.nonNullable = true)
    (hplain : v.isPlain = true) : s.admits t v = true := by
  have hkind : t.nonNullable.nonNullable = t.nonNullable :=
    HostType.nonNullable_eq_self (HostType.isNullableValueType_nonNullable ht)
  rwa [admits_of_isPlain hplain, ← v.isInstanceOf_congr hkind]

/-- A number that is made for a numeric type is a value of that type. -/
theorem admits_of_inRange {o : Outcome Value} (ht : t.isNestedOnce = true)
    (ho : o.InRange fun w => w.isInstanceOf t.nonNullable = true) (hnumeric : t.nonNullable.isNumeric = true)
    (h : o = .ok v) : s.admits t v = true := by
  rw [h] at ho
  have hnumber := Value.isNumber_of_isInstanceOf ho hnumeric
  exact admits_of_isInstanceOf ht ho (by cases v <;> first | rfl | cases hnumber)

/-- A document that is loaded as a whole. -/
theorem admits_loadAtom {j : Json} (ht : t.isNestedOnce = true) (h : s.loadAtom j t = .ok v) :
    s.admits t v = fillsAtom j t := by
  unfold loadAtom at h
  dsimp only at h
  split_ifs at h with hj hnull
  · -- a null document
    cases h
    cases j <;> cases hj
    rw [admits_null, hnull]
    simp [fillsAtom, Value.infer, Value.isBag, Value.isNull]
  · unfold fillsAtom
    split at h
    next hu =>
      unfold enumValue at h
      dsimp only at h
      split at h <;> cases h
      rw [admits_of_isInstanceOf ht (by rw [hu]; exact beq_self_eq_true _) rfl, hu]
      rfl
    next => split_ifs at h
    next hu =>
      cases h
      rw [admits_dictionary s hu, hu]
      rfl
    next hu => rw [admits_object s hu, hu]; rfl
    case h_5 hu | h_6 hu | h_7 hu =>
      have hnumeric : t.nonNullable.isNumeric = true := by rw [hu]; rfl
      split at h
      next x _ =>
        rw [admits_of_inRange ht (Value.ofFloat_inRange x hnumeric) hnumeric h, hu]
        rfl
      next => cases h
    next hne _ _ _ _ =>
      have hfills : (t.nonNullable != .dictionary) = true := by simpa using hne
      rw [hfills, Bool.true_or]
      split_ifs at h with hintegral
      · have hnumeric : t.nonNullable.isNumeric = true := by
          obtain ⟨w, hw⟩ := HostType.isIntegral_iff.mp hintegral
          exact HostType.isNumeric_iff.mpr (.inl ⟨w, hw⟩)
        split at h
        next n _ => exact admits_of_inRange ht (Value.ofInt_inRange n hnumeric) hnumeric h
        next => cases h
      · split at h
        next hprimitive =>
          cases h
          obtain ⟨hv, hplain⟩ := isInstanceOf_of_primitive? hprimitive
          exact admits_of_isInstanceOf ht hv hplain
        next => cases h

/-! ## Records -/

/-- A loader and a check of one field: what the loader gives is of the type exactly if the check says so. -/
def LoadsAsChecked (s : Schema) (load : Loader) (check : HostType → Bool) : Prop :=
  ∀ t v, t.isNestedOnce = true → load t = .ok v → s.admits t v = check t

/-- The value of a bag that a document gives. -/
def bagValue (r : RecordType) (bag : String) (fields : Entries Json) : Value :=
  match Entries.get? fields bag with
  | some .null => .null
  | _ => .dictionary (Value.inferFields (fields.filter fun f => !Entries.has r.members f.1))

/-- The bag of an open record type among the fields of a record. -/
def bagFields (r : RecordType) (fields : Entries Json) : Entries Value :=
  (r.bag.map fun bag => (bag, bagValue r bag fields)).toList

/-- A field of a record and the member that it is the value of. -/
def IsLoaded (loaders : Entries Loader) (m : String × HostType) (f : String × Value) : Prop :=
  f.1 = m.1 ∧
    match Entries.get? loaders m.1 with
    | some load => load m.2 = .ok f.2
    | none => f.2 = .null

theorem names_eq_of_isLoaded {loaders : Entries Loader} {members : Entries HostType}
    {fields : Entries Value} (h : List.Forall₂ (IsLoaded loaders) members fields) :
    Entries.names fields = Entries.names members := by
  induction h with
  | nil => rfl
  | cons hf _ ih => exact congrArg₂ List.cons hf.1 ih

/-- The bag is not among the declared members. -/
theorem get?_bag_of_isLoaded {loaders : Entries Loader} {r : RecordType} {declared : Entries Value} {bag : String}
    (h : List.Forall₂ (IsLoaded loaders) (declaredMembers r) declared) (hbag : r.bag = some bag) :
    Entries.get? declared bag = none := by
  rw [Entries.get?, List.lookup_eq_none_iff]
  intro f hf
  have hname : f.1 ∈ Entries.names (declaredMembers r) := by
    rw [← names_eq_of_isLoaded h]
    exact List.mem_map_of_mem hf
  obtain ⟨m, hm, hmf⟩ := List.mem_map.mp hname
  have hne : some m.1 ≠ some bag := by simpa [hbag] using (List.mem_filter.mp hm).2
  rw [hmf, ne_eq, Option.some.injEq] at hne
  exact bne_iff_ne.mpr (Ne.symm hne)

/-- A record has its declared members in order, then the bag. -/
theorem assemble_eq_ok {typeName : String} {fields : Entries Json} {loaders : Entries Loader}
    (h : s.assemble typeName fields loaders = .ok v) :
    ∃ r declared, s.record? typeName = some r ∧
      List.Forall₂ (IsLoaded loaders) (declaredMembers r) declared ∧
      v = .record typeName (declared ++ bagFields r fields) := by
  unfold assemble at h
  cases hr : s.record? typeName with
  | none =>
    rw [hr] at h
    cases h
  | some r =>
    simp only [hr] at h
    obtain ⟨declared, hdeclared, h⟩ := Outcome.bind_eq_ok.mp h
    have hfields : List.Forall₂ (IsLoaded loaders) (declaredMembers r) declared := by
      refine (Outcome.forall₂_of_mapM hdeclared).imp fun m f hf => ?_
      obtain ⟨name, type⟩ := m
      unfold IsLoaded
      cases hload : Entries.get? loaders name with
      | none =>
        simp only [hload] at hf
        cases hf
        exact ⟨rfl, rfl⟩
      | some load =>
        simp only [hload] at hf
        obtain ⟨w, hw, hf⟩ := Outcome.bind_eq_ok.mp hf
        cases hf
        exact ⟨rfl, hw⟩
    refine ⟨r, declared, rfl, hfields, ?_⟩
    cases hbag : r.bag with
    | none =>
      simp only [hbag] at h
      cases h
      simp [bagFields, hbag]
    | some bag =>
      simp only [hbag] at h
      cases h
      rw [Entries.insert_of_get?_none _ (get?_bag_of_isLoaded hfields hbag), bagFields, hbag]
      rfl

section Assembled

variable {typeName : String} {r : RecordType} {fields : Entries Json} {loaders : Entries Loader}
  {declared : Entries Value}

/-- The names of the declared members and of the bag are those of all members. -/
theorem names_perm (hr : r.IsProper) (hdeclared : List.Forall₂ (IsLoaded loaders) (declaredMembers r) declared)
    (fields : Entries Json) :
    (Entries.names (declared ++ bagFields r fields)).Perm (Entries.names r.members) := by
  rw [Entries.names, List.map_append]
  change (Entries.names declared ++ _).Perm _
  rw [names_eq_of_isLoaded hdeclared, declaredMembers]
  cases hbag : r.bag with
  | none =>
    have hall : r.members.filter (fun m => some m.1 != none) = r.members := by simp
    rw [hall]
    simp [bagFields, hbag]
  | some bag =>
    have hnodup : (Entries.names (r.members.filter fun m => some m.1 != some bag)).Nodup :=
      hr.names.sublist (List.filter_sublist.map _)
    have hmem (name : String) :
        name ∈ Entries.names (r.members.filter fun m => some m.1 != some bag) ↔
          name ∈ Entries.names r.members ∧ name ≠ bag := by
      simp only [Entries.names, List.mem_map, List.mem_filter, bne_iff_ne, ne_eq, Option.some.injEq]
      constructor
      · rintro ⟨m, ⟨hm, hne⟩, rfl⟩
        exact ⟨⟨m, hm, rfl⟩, hne⟩
      · rintro ⟨⟨m, hm, rfl⟩, hne⟩
        exact ⟨m, ⟨hm, hne⟩, rfl⟩
    have hbagMem : bag ∈ Entries.names r.members := List.mem_map_of_mem (hr.bag bag hbag)
    simp only [bagFields, hbag, Option.map_some, Option.toList_some, List.map_cons, List.map_nil]
    refine (List.perm_ext_iff_of_nodup ?_ hr.names).mpr fun name => ?_
    · refine hnodup.append (List.nodup_singleton bag) ?_
      rw [List.disjoint_singleton, hmem]
      exact fun h => h.2 rfl
    · rw [List.mem_append, hmem, List.mem_singleton]
      constructor
      · rintro (h | rfl)
        · exact h.1
        · exact hbagMem
      · intro h
        by_cases hname : name = bag
        · exact .inr hname
        · exact .inl ⟨h, hname⟩

theorem member?_of_mem (hs : s.IsProper) (hr : s.record? typeName = some r) {m : String × HostType}
    (hm : m ∈ r.members) : s.member? typeName m.1 = some ⟨typeName, m.1, m.2⟩ := by
  have hproper := hs _ (Entries.mem_of_get? hr)
  simp only [member?, hr, Option.bind_eq_bind, Option.bind_some, Entries.get?_of_mem hproper.names hm]

/-- The values of declared members are of their types exactly if the fields give what these ask for. -/
theorem all_admits_of_isLoaded {checks : Entries (HostType → Bool)} {members : Entries HostType}
    (hmembers : ∀ m ∈ members, s.member? typeName m.1 = some ⟨typeName, m.1, m.2⟩ ∧ m.2.isNestedOnce = true)
    (hchecks : ∀ name, Option.Rel s.LoadsAsChecked (Entries.get? loaders name) (Entries.get? checks name))
    (h : List.Forall₂ (IsLoaded loaders) members declared) :
    declared.all (fun f => (s.member? typeName f.1).any fun m => s.admits m.type f.2) =
      members.all (fillsMember checks) := by
  induction h with
  | nil => rfl
  | @cons m f members _ hf _ ih =>
    rw [List.all_cons, List.all_cons, ih fun m hm => hmembers m (List.mem_cons_of_mem _ hm)]
    congr 1
    obtain ⟨hmember, htype⟩ := hmembers m List.mem_cons_self
    obtain ⟨hname, hf⟩ := hf
    rw [hname, hmember, Option.any_some, fillsMember]
    have hcheck := hchecks m.1
    revert hf hcheck
    cases Entries.get? loaders m.1 <;> cases Entries.get? checks m.1 <;> intro hf hcheck
    · rw [hf]
      rfl
    · cases hcheck
    · cases hcheck
    · cases hcheck with
      | some hcheck => exact hcheck m.2 f.2 htype hf

/-- A record is one of its type exactly if its document gives what the members ask for. -/
theorem admits_assemble {checks : Entries (HostType → Bool)} (hs : s.IsProper)
    (ht : t.nonNullable = .record typeName)
    (hchecks : ∀ name, Option.Rel s.LoadsAsChecked (Entries.get? loaders name) (Entries.get? checks name))
    (h : s.assemble typeName fields loaders = .ok v) : s.admits t v = s.fillsMembers typeName checks := by
  obtain ⟨r, declared, hr, hdeclared, rfl⟩ := assemble_eq_ok h
  have hproper : r.IsProper := hs _ (Entries.mem_of_get? hr)
  have hbag : (bagFields r fields).all (fun f =>
      (s.member? typeName f.1).any fun m => s.admits m.type f.2) = true := by
    cases hbag : r.bag with
    | none => simp [bagFields, hbag]
    | some bag =>
      simp only [bagFields, hbag, Option.map_some, Option.toList_some, List.all_cons, List.all_nil,
        Bool.and_true, member?_of_mem hs hr (hproper.bag bag hbag), Option.any_some]
      rw [admits_dictionary s rfl]
      unfold bagValue
      split <;> rfl
  have hmembers : ∀ m ∈ declaredMembers r,
      s.member? typeName m.1 = some ⟨typeName, m.1, m.2⟩ ∧ m.2.isNestedOnce = true := by
    intro m hm
    have hm := (List.mem_filter.mp hm).1
    exact ⟨member?_of_mem hs hr hm, hproper.types m hm⟩
  simp only [admits, ht, beq_self_eq_true, Bool.true_and, hasMembers, hr,
    List.isPerm_iff.mpr (names_perm hproper hdeclared fields), admitsFields_eq_all, List.all_append, hbag,
    Bool.and_true, all_admits_of_isLoaded hmembers hchecks hdeclared, fillsMembers]

end Assembled

/-! ## Documents of any depth -/

mutual

/-- **A document loads to a value of the type exactly if it fills the type.** -/
theorem admits_load (hs : s.IsProper) {j : Json} {t : HostType} {v : Value} (ht : t.isNestedOnce = true)
    (h : s.load j t = .ok v) : s.admits t v = s.fills j t := by
  cases j with
  | array items =>
    simp only [load, fills] at h ⊢
    cases hu : t.nonNullable with
    | collection element =>
      rw [hu] at h
      have helement : element.isNestedOnce = true := by
        have hnested := HostType.isNestedOnce_nonNullable ht
        rwa [hu] at hnested
      cases hitems : loadItems s items element with
      | error e =>
        simp only [hitems] at h
        cases h
      | ok vs =>
        simp only [hitems] at h
        cases h
        simp only [admits, hu]
        exact admits_loadItems hs helement hitems
    | _ =>
      rw [hu] at h
      exact admits_loadAtom ht h
  | object fields =>
    simp only [load, fills] at h ⊢
    cases hu : t.nonNullable with
    | record name =>
      rw [hu] at h
      exact admits_assemble hs hu (loadsAsChecked_loadFields hs) h
    | _ =>
      rw [hu] at h
      exact admits_loadAtom ht h
  | _ => exact admits_loadAtom ht h
termination_by structural j

theorem admits_loadItems (hs : s.IsProper) {items : List Json} {t : HostType} {vs : List Value}
    (ht : t.isNestedOnce = true) (h : s.loadItems items t = .ok vs) :
    s.admitsItems t vs = s.fillsItems items t := by
  cases items with
  | nil =>
    cases h
    rfl
  | cons j rest =>
    unfold loadItems at h
    split at h
    next => cases h
    next v hv =>
      cases hrest : loadItems s rest t with
      | error e =>
        rw [hrest] at h
        cases h
      | ok vs =>
        rw [hrest] at h
        cases h
        rw [admitsItems, fillsItems, admits_load hs ht hv, admits_loadItems hs ht hrest]
termination_by structural items

theorem loadsAsChecked_loadFields (hs : s.IsProper) {fields : List (String × Json)} (name : String) :
    Option.Rel s.LoadsAsChecked (Entries.get? (loadFields s fields) name)
      (Entries.get? (fillsFields s fields) name) := by
  cases fields with
  | nil => exact .none
  | cons f rest =>
    obtain ⟨key, j⟩ := f
    rw [loadFields, fillsFields, Entries.get?_cons, Entries.get?_cons]
    split
    · exact .some fun t v ht hv => admits_load hs ht hv
    · exact loadsAsChecked_loadFields hs name
termination_by structural fields

end

end Schema

/-! ## The members of a record and its bag -/

theorem Value.get?_inferFields (fields : Entries Json) (key : String) :
    Entries.get? (Value.inferFields fields) key = (Entries.get? fields key).map Value.infer := by
  induction fields with
  | nil => rfl
  | cons f rest ih =>
    obtain ⟨name, j⟩ := f
    rw [Value.inferFields, Entries.get?_cons, Entries.get?_cons, ih]
    split <;> rfl

theorem Entries.get?_filter {α : Type} {p : String → Bool} (es : Entries α) {key : String}
    (hp : p key = true) : Entries.get? (es.filter fun e => p e.1) key = Entries.get? es key := by
  induction es with
  | nil => rfl
  | cons e rest ih =>
    obtain ⟨name, a⟩ := e
    rw [List.filter_cons]
    by_cases hname : key = name
    · subst hname
      rw [if_pos hp, Entries.get?_cons, Entries.get?_cons, if_pos rfl, if_pos rfl]
    · split
      · rw [Entries.get?_cons, Entries.get?_cons, if_neg hname, if_neg hname, ih]
      · rw [Entries.get?_cons, if_neg hname, ih]

/-- A record with the members of its type is one of the type exactly if its members have values of their
types. -/
theorem Schema.admits_members_iff {s : Schema} (hs : s.IsProper) {name : String} {r : RecordType}
    (hr : s.record? name = some r) {fields : Entries Value}
    (hnames : (Entries.names fields).Perm (Entries.names r.members)) :
    s.admits (.record name) (.record name fields) = true ↔
      ∀ key t, Entries.get? r.members key = some t →
        ∃ w, Entries.get? fields key = some w ∧ s.admits t w = true := by
  have hproper : r.IsProper := hs _ (Entries.mem_of_get? hr)
  have hnodup : (Entries.names fields).Nodup := hnames.nodup_iff.mpr hproper.names
  rw [Schema.admits_record_iff rfl rfl]
  constructor
  · rintro ⟨_, _, heq, -, -, hfields⟩ key t hkey
    cases heq
    have hmem := Entries.mem_of_get? hkey
    obtain ⟨⟨_, w⟩, hf, rfl⟩ := List.mem_map.mp (hnames.mem_iff.mpr (List.mem_map_of_mem hmem))
    obtain ⟨m, hm, hw⟩ := hfields _ hf
    rw [Schema.member?_of_mem hs hr hmem] at hm
    cases hm
    exact ⟨w, Entries.get?_of_mem hnodup hf, hw⟩
  · intro hmembers
    refine ⟨r, fields, rfl, hr, hnames, fun f hf => ?_⟩
    obtain ⟨m, hm, hname⟩ := List.mem_map.mp (hnames.mem_iff.mp (List.mem_map_of_mem hf))
    obtain ⟨w, hw, hadmits⟩ := hmembers m.1 m.2 (Entries.get?_of_mem hproper.names hm)
    rw [hname, Entries.get?_of_mem hnodup hf] at hw
    cases hw
    rw [← hname]
    exact ⟨_, Schema.member?_of_mem hs hr hm, hadmits⟩

/-- **Records from documents.** A record that is loaded from an object has exactly the members of its type.
They all have values of their types, at every depth, exactly if the object gives what the types ask for.
The bag of an open type has every undeclared field, with the value of its shape, unless the object gives
the bag as null. -/
theorem loaded_records_conform {s : Schema} (hs : s.IsProper) {name : String} {j : Json} {v : Value}
    (h : s.loadRecord name j = .ok v) :
    ∃ r object fields, s.record? name = some r ∧ j.canonical = .object object ∧ v = .record name fields ∧
      (Entries.names fields).Perm (Entries.names r.members) ∧
      (s.fills j.canonical (.record name) = true ↔
        ∀ key t, Entries.get? r.members key = some t →
          ∃ w, Entries.get? fields key = some w ∧ s.admits t w = true) ∧
      ∀ bag, r.bag = some bag →
        (Entries.get? object bag = some .null ∧ Entries.get? fields bag = some .null) ∨
        ∃ entries, Entries.get? fields bag = some (.dictionary entries) ∧
          ∀ key, Entries.has r.members key = false →
            Entries.get? entries key = (Entries.get? object key).map Value.infer := by
  unfold Schema.loadRecord at h
  split_ifs at h with hname
  cases hj : j.canonical with
  | object object =>
    rw [hj] at h
    dsimp only at h
    have hadmits : s.admits (.record name) v = s.fills (.object object) (.record name) :=
      Schema.admits_load hs rfl h
    obtain ⟨r, declared, hr, hdeclared, rfl⟩ := Schema.assemble_eq_ok h
    have hproper : r.IsProper := hs _ (Entries.mem_of_get? hr)
    have hperm := Schema.names_perm hproper hdeclared object
    have hnodup : (Entries.names (declared ++ Schema.bagFields r object)).Nodup :=
      hperm.nodup_iff.mpr hproper.names
    refine ⟨r, object, _, hr, rfl, rfl, hperm, ?_, fun bag hbag => ?_⟩
    · rw [← hadmits]
      exact Schema.admits_members_iff hs hr hperm
    · have hvalue : Entries.get? (declared ++ Schema.bagFields r object) bag
          = some (Schema.bagValue r bag object) := by
        refine Entries.get?_of_mem hnodup (List.mem_append_right _ ?_)
        simp [Schema.bagFields, hbag]
      rw [hvalue]
      unfold Schema.bagValue
      split
      next hnull => exact .inl ⟨hnull, rfl⟩
      next =>
        refine .inr ⟨_, rfl, fun key hkey => ?_⟩
        rw [Value.get?_inferFields, Entries.get?_filter (p := fun name => !Entries.has r.members name)
          object (by simp [hkey])]
  | _ =>
    rw [hj] at h
    cases h

/-! ## Sales -/

/-- Sales with lines, open to other fields. -/
def salesSchema : Schema :=
  (Schema.empty.addRecord (.closed "Line" [("Price", .int .int32)])).addRecord
    (.opened (.closed "Sale" [("Place", .string), ("Lines", .collection (.record "Line")),
      ("Count", .nullable (.int .int32))]) "Bag")

/-- A sale with one line and an undeclared rank. -/
def saleDocument : Json :=
  .object [("Rank", .int 7), ("Place", .string "Rome"), ("Lines", .array [.object [("Price", .int 3)]])]

theorem salesSchema_isProper : salesSchema.IsProper := by
  refine Schema.isProper_addRecord (Schema.isProper_addRecord Schema.isProper_empty ?_) ?_
  · exact RecordType.isProper_closed _ (by decide)
  · exact RecordType.isProper_opened (RecordType.isProper_closed _ (by decide)) _

theorem loaded_sale_conforms :
    ∃ fields, salesSchema.loadRecord "Sale" saleDocument = .ok (.record "Sale" fields) ∧
      (∃ lines, Entries.get? fields "Lines" = some lines ∧
        salesSchema.admits (.collection (.record "Line")) lines = true) ∧
      ∃ entries, Entries.get? fields "Bag" = some (.dictionary entries) ∧
        Entries.get? entries "Rank" = some (.int32 7) := by
  have hload : (salesSchema.loadRecord "Sale" saleDocument).toOption.isSome = true := by decide +kernel
  obtain ⟨v, hv⟩ := Option.isSome_iff_exists.mp hload
  have hv := Outcome.toOption_eq_some.mp hv
  have hfills : salesSchema.fills saleDocument.canonical (.record "Sale") = true := by decide +kernel
  obtain ⟨r, object, fields, hr, hobject, rfl, -, htypes, hbag⟩ :=
    loaded_records_conform salesSchema_isProper hv
  cases hr
  refine ⟨fields, hv, htypes.mp hfills "Lines" _ rfl, ?_⟩
  have hsorted : saleDocument.canonical = .object [("Lines", .array [.object [("Price", .int 3)]]),
      ("Place", .string "Rome"), ("Rank", .int 7)] := by rfl
  rw [hsorted] at hobject
  cases hobject
  rcases hbag "Bag" rfl with ⟨hnull, -⟩ | ⟨entries, hentries, hrank⟩
  · cases hnull
  · exact ⟨entries, hentries, hrank "Rank" rfl⟩

/-- Items with tags. -/
def tagsSchema : Schema := Schema.empty.addRecord (.closed "Item" [("Tags", .dictionary)])

/-- A price that is not given is null, though a price that is given as null is refused, and a number is
taken for a dictionary. -/
theorem loading_leaves_members_empty :
    (∃ fields, salesSchema.loadRecord "Line" (.object []) = .ok (.record "Line" fields) ∧
      Entries.get? fields "Price" = some .null ∧ salesSchema.admits (.int .int32) .null = false) ∧
    salesSchema.loadRecord "Line" (.object [("Price", .null)]) = .error (.typeMismatch "Int32" "null") ∧
    ∃ fields, tagsSchema.loadRecord "Item" (.object [("Tags", .int 5)]) = .ok (.record "Item" fields) ∧
      Entries.get? fields "Tags" = some (.int32 5) ∧ tagsSchema.admits .dictionary (.int32 5) = false :=
  ⟨⟨_, rfl, rfl, rfl⟩, rfl, _, rfl, rfl, rfl⟩

end TypedQuery
