import TypedQuery.Proofs.Parameterization

/-!
# Chains of open properties

The first property of a chain from an open record is an entry of its bag. What the later ones are
shows only when the query runs: a member that the type of the value declares, else an entry of its
bag, and nothing behind a value that has neither.

* `Schema.lookUp`: what a value has under a name.
* `Schema.Complete`: the records inside a value have the members of their types.
* `Node.bind_openChain`: the chain as it is bound.
* **`open_chains_look_up`**: the value of a chain, and how it fails.
-/

namespace TypedQuery

/-! ## Looking up -/

/-- The entry of a dictionary; null if there is none. -/
def Value.entryOrNull : Value → String → Value
  | .dictionary entries, name => (Entries.get? entries name).getD .null
  | _, _ => .null

namespace Schema

/-- The name is one of a declared member of a record type, other than the bag. -/
def Declares (s : Schema) (typeName name : String) : Prop :=
  (s.member? typeName name).isSome ∧ ∀ bag, s.bag? typeName = some bag → bag.name ≠ name

theorem declares_iff (s : Schema) (typeName name : String) :
    ((s.bag? typeName).all (·.name != name) && (s.member? typeName name).isSome) = true ↔
      s.Declares typeName name := by
  unfold Declares
  cases s.bag? typeName <;> simp [and_comm]

instance (s : Schema) (typeName name : String) : Decidable (s.Declares typeName name) :=
  decidable_of_iff _ (declares_iff s typeName name)

/-- What a value has under a name: a declared member of a record, else an entry of its bag, or the
entry of a dictionary. Records of types that the schema does not have cannot be read. -/
def lookUp (s : Schema) (v : Value) (name : String) : Outcome Value :=
  match v with
  | .dictionary entries => .ok ((Entries.get? entries name).getD .null)
  | .record typeName fields =>
    if s.hasRecord typeName then
      if s.Declares typeName name then .ok ((Entries.get? fields name).getD .null)
      else
        let bag := (s.bag? typeName).bind fun bag => Entries.get? fields bag.name
        .ok ((bag.getD .null).entryOrNull name)
    else .error (.resourceTypeNotInModel typeName)
  | _ => .ok .null

end Schema

/-! ## Values inside values -/

/-- A field of a record, or an entry of a dictionary. -/
def Value.part? : Value → String → Option Value
  | .record _ parts, name | .dictionary parts, name => Entries.get? parts name
  | _, _ => none

/-- The second value is the first one, or a part of a value that the first one holds. -/
inductive Value.Holds (v : Value) : Value → Prop
  | self : Holds v v
  | part {u w : Value} {name : String} (h : Holds v u) (hw : u.part? name = some w) : Holds v w

theorem Value.holds_iff {u v : Value} :
    v.Holds u ↔ u = v ∨ ∃ name w, v.part? name = some w ∧ w.Holds u := by
  constructor
  · intro h
    induction h with
    | self => exact .inl rfl
    | part _ hw ih =>
      obtain rfl | ⟨name, w, hpart, hw'⟩ := ih
      · exact .inr ⟨_, _, hw, .self⟩
      · exact .inr ⟨name, w, hpart, hw'.part hw⟩
  · rintro (rfl | ⟨name, w, hpart, h⟩)
    · exact .self
    · induction h with
      | self => exact .part .self hpart
      | part _ hw ih => exact ih.part hw

namespace Schema

variable {s : Schema}

/-- The records that a value holds have all members that their types declare. -/
def Complete (s : Schema) (v : Value) : Prop :=
  ∀ typeName fields, v.Holds (.record typeName fields) →
    ∀ name, (s.member? typeName name).isSome → (Entries.get? fields name).isSome

/-- The members are looked for in the value and in its parts. -/
theorem complete_iff {v : Value} :
    s.Complete v ↔
      (∀ typeName fields, v = .record typeName fields →
        ∀ name, (s.member? typeName name).isSome → (Entries.get? fields name).isSome) ∧
      ∀ name w, v.part? name = some w → s.Complete w := by
  constructor
  · refine fun h => ⟨fun typeName fields hv => h typeName fields (hv ▸ .self),
      fun name w hw typeName fields hr => h typeName fields ?_⟩
    exact Value.holds_iff.mpr (.inr ⟨name, w, hw, hr⟩)
  · rintro ⟨hself, hparts⟩ typeName fields h
    rcases Value.holds_iff.mp h with hv | ⟨name, w, hw, hr⟩
    · exact hself typeName fields hv.symm
    · exact hparts name w hw typeName fields hr

theorem Complete.part {v w : Value} {name : String} (h : s.Complete v) (hw : v.part? name = some w) :
    s.Complete w := (complete_iff.mp h).2 name w hw

theorem complete_null (s : Schema) : s.Complete .null :=
  complete_iff.mpr ⟨(by rintro _ _ ⟨⟩), (by rintro _ _ ⟨⟩)⟩

theorem Complete.getD {o : Option Value} (h : ∀ w, o = some w → s.Complete w) :
    s.Complete (o.getD .null) := by
  cases o with
  | none => exact s.complete_null
  | some w => exact h w rfl

theorem Complete.entryOrNull {v : Value} (h : s.Complete v) (name : String) :
    s.Complete (v.entryOrNull name) := by
  unfold Value.entryOrNull
  split
  · exact .getD fun w hw => h.part hw
  · exact s.complete_null

/-- What is looked up in a complete value is complete. -/
theorem Complete.lookUp {v w : Value} {name : String} (h : s.Complete v)
    (hw : s.lookUp v name = .ok w) : s.Complete w := by
  unfold Schema.lookUp at hw
  split at hw
  · cases hw
    exact .getD fun w hw => h.part hw
  · split_ifs at hw <;> cases hw
    · exact .getD fun w hw => h.part hw
    · refine (Complete.getD fun w hw => ?_).entryOrNull name
      obtain ⟨bag, -, hw⟩ := Option.bind_eq_some_iff.mp hw
      exact h.part hw
  · cases hw
    exact s.complete_null

/-- **The three look-ups that an expression makes are one.** -/
theorem lookUp_eq {v : Value} (h : s.Complete v) (name : String) :
    (s.declaresProperty v name >>= fun b => if b then v.member name else s.dynamicProperty v name) =
      s.lookUp v name := by
  cases v with
  | record typeName fields =>
    simp only [declaresProperty, dynamicProperty, lookUp, Value.member]
    cases hrecord : s.hasRecord typeName with
    | false => rfl
    | true =>
      simp only [if_true, Outcome.ok_bind]
      by_cases hdeclared : s.Declares typeName name
      · obtain ⟨w, hw⟩ := Option.isSome_iff_exists.mp (h typeName fields .self name hdeclared.1)
        rw [if_pos ((declares_iff s typeName name).mpr hdeclared), if_pos hdeclared, hw]
        rfl
      · rw [if_neg fun h => hdeclared ((declares_iff s typeName name).mp h), if_neg hdeclared]
        cases (s.bag? typeName).bind fun bag => Entries.get? fields bag.name with
        | none => rfl
        | some w => cases w <;> rfl
  | _ => rfl

end Schema

/-! ## Access to open properties -/

namespace Context

variable {ctx : Context} {source e : Expr} {env : Env}

/-- A property of a value whose shape is not known is looked up. -/
theorem dynamicAccess_lookUp [External] (name : String)
    (h : ∀ v, source.eval env = .ok v → ctx.schema.Complete v) : (ctx.dynamicAccess source name).eval env =
      source.eval env >>= fun v => ctx.schema.lookUp v name := by
  rw [dynamicAccess_eval]
  cases hv : source.eval env with
  | error err => rfl
  | ok v => exact Schema.lookUp_eq (h v hv) name

/-- **A chain of properties from such a value on is the fold of looking up.** -/
theorem exists_of_dynamic [External] (hsource : source.type = .object) (names : List String) :
    ∃ e, names.foldlM ctx.openAccess source = .ok e ∧ e.type = .object ∧
      ∀ env, (∀ v, source.eval env = .ok v → ctx.schema.Complete v) →
        e.eval env = source.eval env >>= names.foldlM ctx.schema.lookUp := by
  induction names generalizing source with
  | nil =>
    refine ⟨source, rfl, hsource, fun env _ => ?_⟩
    cases source.eval env <;> rfl
  | cons name rest ih =>
    have haccess : ctx.openAccess source name = .ok (ctx.dynamicAccess source name) := by
      rw [openAccess, hsource]
    obtain ⟨e, he, htype, heval⟩ := @ih (ctx.dynamicAccess source name) rfl
    refine ⟨e, ?_, htype, fun env hcomplete => ?_⟩
    · rw [List.foldlM_cons, haccess]
      exact he
    · have hlookUp := dynamicAccess_lookUp name hcomplete
      rw [heval env fun w hw => ?_, hlookUp, bind_assoc]
      · rfl
      · rw [hlookUp] at hw
        obtain ⟨v, hv, hw⟩ := Outcome.bind_eq_ok.mp hw
        exact (hcomplete v hv).lookUp hw

/-- A guard of a value whose shape is not known. -/
theorem guardIfNeeded_type_object {result : Expr} (h : result.type = .object) :
    (ctx.guardIfNeeded source result).type = .object := by
  rw [guardIfNeeded_eq, List.filter_singleton]
  cases ctx.needsGuard source with
  | false => exact h
  | true => rw [Bool.cond_true, Expr.type_guardCall, h]; rfl

theorem guardIfNeeded_eval_object [External] {result : Expr} (h : result.type = .object) {v : Value}
    (hsource : source.eval env = .ok v) (hnull : v.isNull = false) :
    (ctx.guardIfNeeded source result).eval env = result.eval env := by
  rw [guardIfNeeded_eq, List.filter_singleton]
  cases ctx.needsGuard source with
  | false => rfl
  | true =>
    have hsome : Expr.someNull env [source] = .ok false :=
      Expr.someNull_of_nonNull (List.forall_mem_singleton.mpr ⟨v, hsource, hnull⟩)
    rw [Bool.cond_true, Expr.eval_guardCall, hsome, Outcome.ok_bind, if_neg Bool.false_ne_true,
      Expr.convertTo, if_pos (by rw [h]; rfl)]

/-- **A property that an open record type does not declare is an entry of the bag.** -/
theorem exists_of_open [External] (hpropagation : ctx.settings.nullPropagation = true)
    {typeName name : String} {bag : Member} (hsource : source.type = .record typeName)
    (hbag : ctx.schema.bag? typeName = some bag) (hname : ctx.schema.member? typeName name = none) :
    ∃ e, ctx.openAccess source name = .ok e ∧ e.type = .object ∧
      ∀ env recordType fields start, source.eval env = .ok (.record recordType fields) →
        Entries.get? fields bag.name = some start →
        (start = .null ∨ ∃ entries, start = .dictionary entries) →
        e.eval env = ctx.schema.lookUp start name := by
  refine ⟨ctx.guardIfNeeded source (ctx.entryOfBag (.member source bag) name), ?_, ?_,
    fun env recordType fields start hrecord hstart hbagged => ?_⟩
  · rw [openAccess, hsource]
    simp only [bagAccess, hname, hbag, Option.isSome_none, Bool.false_eq_true, if_false]
  · exact guardIfNeeded_type_object rfl
  · have hmember : (Expr.member source bag).eval env = .ok start := by
      rw [Expr.eval, hrecord]
      exact congrArg (orFail _) hstart
    rw [guardIfNeeded_eval_object rfl hrecord rfl, entryOfBag_eval hpropagation, hmember]
    obtain rfl | ⟨entries, rfl⟩ := hbagged
    · rfl
    · simp only [Outcome.ok_bind, Value.isNull, Bool.false_eq_true, if_false, Value.hasEntry,
        Value.asString?, Value.entry, Schema.lookUp, Entries.has]
      cases Entries.get? entries name <;> rfl

end Context

/-! ## Chains as they are bound -/

namespace Node

/-- The variable that a chain of open properties starts from, with the names of the chain. -/
def openChain? : Node → Option (RangeVariable × List String)
  | .rangeVariable v => some (v, [])
  | .openProperty source name | .openCollection source name =>
    source.openChain?.map fun chain => (chain.1, chain.2 ++ [name])
  | _ => none

/-- What becomes of a chain of open properties: it is bound link by link, as far as the levels
suffice. -/
def openChainIn (ctx : Context) (v : RangeVariable) (path : List String) : Outcome Expr :=
  if path.length < ctx.levelsLeft then ctx.resolve v >>= path.foldlM ctx.openAccess
  else .error (.nestingTooDeep (ctx.depth + ctx.levelsLeft + 1) ctx.settings.maxDepth)

theorem openChainIn_snoc {ctx : Context} (h : ctx.depth < ctx.settings.maxDepth) (v : RangeVariable)
    (path : List String) (name : String) :
    openChainIn ctx v (path ++ [name]) =
      openChainIn ctx.deeper v path >>= fun source => ctx.openAccess source name := by
  have hlevels : ctx.levelsLeft = ctx.deeper.levelsLeft + 1 := by
    simp only [Context.levelsLeft, Context.deeper]
    omega
  have hdepth : ctx.depth + ctx.levelsLeft = ctx.deeper.depth + ctx.deeper.levelsLeft := by
    rw [hlevels]
    simp only [Context.deeper]
    omega
  unfold openChainIn
  rw [hdepth, List.length_append, List.length_singleton]
  by_cases hlt : path.length < ctx.deeper.levelsLeft
  · rw [if_pos (by omega), if_pos hlt, bind_assoc]
    refine congrArg (ctx.resolve v >>= ·) (funext fun source => ?_)
    simp only [List.foldlM_append, List.foldlM_cons, List.foldlM_nil, bind_pure]
    rfl
  · rw [if_neg (by omega), if_neg hlt]
    rfl

theorem openChainIn_of_le {ctx : Context} (h : ctx.settings.maxDepth ≤ ctx.depth) (v : RangeVariable)
    (path : List String) :
    openChainIn ctx v path = .error (.nestingTooDeep (ctx.depth + 1) ctx.settings.maxDepth) := by
  have hlevels : ctx.levelsLeft = 0 := Nat.sub_eq_zero_of_le h
  rw [openChainIn, hlevels, if_neg (Nat.not_lt_zero _)]

/-- A link of a chain, if the chain before it is bound as it should be. -/
theorem bind_openLink {node source : Node} {name : String} {v : RangeVariable} {path : List String}
    {ctx : Context} (hcomputed : ctx.computed = [])
    (hstep : ∀ sub, Bind.step sub node = Bind.openProperty sub source name)
    (hsource : source.bind ctx.deeper = (openChainIn ctx.deeper v path, ctx.deeper)) :
    node.bind ctx = (openChainIn ctx v (path ++ [name]), ctx) := by
  by_cases hlt : ctx.depth < ctx.settings.maxDepth
  · have hnone : Bind.computed? ctx.deeper source name = none := by
      cases source <;> first | rfl | simp [Bind.computed?, Context.deeper, hcomputed, Entries.get?]
    have hcontext : BindM.context ctx.deeper = (.ok ctx.deeper, ctx.deeper) := rfl
    have hinside : Bind.openProperty (bindWithin ctx.deeper.levelsLeft) source name ctx.deeper =
        (openChainIn ctx.deeper v path >>= fun e => ctx.openAccess e name, ctx.deeper) := by
      rw [Bind.openProperty, BindM.bind_of_ok hcontext, hnone]
      dsimp only
      have hsource : source.bindWithin ctx.deeper.levelsLeft ctx.deeper = _ := hsource
      cases hbound : openChainIn ctx.deeper v path with
      | error err => exact BindM.bind_of_error (hbound ▸ hsource)
      | ok e => exact BindM.bind_of_ok (hbound ▸ hsource)
    rw [bind_eq_of_lt node hlt, hstep, hinside, openChainIn_snoc hlt]
    rfl
  · have hle := Nat.le_of_not_lt hlt
    rw [bind_eq_of_le hle, openChainIn_of_le hle]

/-- **A chain of open properties is bound link by link**, and the context stays as it is. -/
theorem bind_openChain {node : Node} {v : RangeVariable} {path : List String}
    (hchain : node.openChain? = some (v, path)) {ctx : Context} (hcomputed : ctx.computed = []) :
    node.bind ctx = (openChainIn ctx v path, ctx) := by
  induction node using Node.openChain?.induct generalizing path ctx with
  | case1 w =>
    cases hchain
    by_cases hlt : ctx.depth < ctx.settings.maxDepth
    · have hpos : 0 < ctx.levelsLeft := Nat.sub_pos_of_lt hlt
      rw [bind_eq_of_lt _ hlt, openChainIn, List.length_nil, if_pos hpos]
      simp only [List.foldlM_nil, bind_pure]
      rfl
    · have hle := Nat.le_of_not_lt hlt
      rw [bind_eq_of_le hle, openChainIn_of_le hle]
  | case2 source name ih =>
    obtain ⟨⟨w, init⟩, hinit, heq⟩ := Option.map_eq_some_iff.mp hchain
    obtain ⟨rfl, rfl⟩ := Prod.mk.inj heq
    exact bind_openLink hcomputed (fun _ => rfl) (ih hinit hcomputed)
  | case3 source name ih =>
    obtain ⟨⟨w, init⟩, hinit, heq⟩ := Option.map_eq_some_iff.mp hchain
    obtain ⟨rfl, rfl⟩ := Prod.mk.inj heq
    exact bind_openLink hcomputed (fun _ => rfl) (ih hinit hcomputed)
  | case4 node h₁ h₂ h₃ =>
    cases node with
    | rangeVariable v => exact absurd rfl (h₁ v)
    | openProperty source name => exact absurd rfl (h₂ source name)
    | openCollection source name => exact absurd rfl (h₃ source name)
    | _ => cases hchain

end Node

/-! ## The value of a chain -/

theorem Schema.lookUp_eq_error {s : Schema} {name : String} {v : Value} {err : Error}
    (h : s.lookUp v name = .error err) :
    ∃ typeName fields, v = .record typeName fields ∧ s.hasRecord typeName = false ∧
      err = .resourceTypeNotInModel typeName := by
  unfold lookUp at h
  split at h
  · cases h
  · rename_i typeName fields
    split_ifs at h with hrecord
    cases h
    exact ⟨typeName, fields, rfl, by simpa using hrecord, rfl⟩
  · cases h

/-- A run of look-ups fails at a record whose type the schema does not have, and nowhere else. -/
theorem Schema.foldlM_lookUp_eq_error {s : Schema} {names : List String} {v : Value} {err : Error} :
    names.foldlM s.lookUp v = .error err ↔
      ∃ init name rest typeName fields, names = init ++ name :: rest ∧
        init.foldlM s.lookUp v = .ok (.record typeName fields) ∧ s.hasRecord typeName = false ∧
        err = .resourceTypeNotInModel typeName := by
  induction names generalizing v with
  | nil =>
    refine ⟨(by rintro ⟨⟩), ?_⟩
    rintro ⟨init, name, rest, _, _, h, -⟩
    simp at h
  | cons first names ih =>
    rw [List.foldlM_cons]
    cases hstep : s.lookUp v first with
    | ok w =>
      rw [Outcome.ok_bind, ih]
      constructor
      · rintro ⟨init, name, rest, typeName, fields, rfl, h, hrecord, rfl⟩
        refine ⟨first :: init, name, rest, typeName, fields, rfl, ?_, hrecord, rfl⟩
        rw [List.foldlM_cons, hstep]
        exact h
      · rintro ⟨init, name, rest, typeName, fields, hsplit, h, hrecord, rfl⟩
        cases init with
        | nil =>
          cases h
          obtain ⟨rfl, -⟩ := List.cons.inj hsplit
          rw [lookUp, hrecord] at hstep
          cases hstep
        | cons second init =>
          obtain ⟨rfl, rfl⟩ := List.cons.inj hsplit
          rw [List.foldlM_cons, hstep] at h
          exact ⟨init, name, rest, typeName, fields, rfl, h, hrecord, rfl⟩
    | error cause =>
      obtain ⟨typeName, fields, rfl, hrecord, rfl⟩ := lookUp_eq_error hstep
      constructor
      · rintro ⟨⟩
        exact ⟨[], first, names, typeName, fields, rfl, rfl, hrecord, rfl⟩
      · rintro ⟨init, name, rest, typeName', fields', hsplit, h, hrecord', rfl⟩
        cases init with
        | nil =>
          cases h
          rfl
        | cons second init =>
          obtain ⟨rfl, rfl⟩ := List.cons.inj hsplit
          rw [List.foldlM_cons, hstep] at h
          cases h

/-- **Chains of open properties are looked up when the query runs.** Let the first name of a chain be
one that the open type of a variable's record does not declare. With null propagation and without
computed columns, the chain is bound as far as levels are left, and its value is what looking up one
name after the other gives, from the bag on. It fails only at a record whose type the schema does not
have, and there it does. -/
theorem open_chains_look_up [External] {ctx : Context} (hpropagation : ctx.settings.nullPropagation = true)
    (hcomputed : ctx.computed = []) {node : Node} {v : RangeVariable} {first : String}
    {rest : List String} (hchain : node.openChain? = some (v, first :: rest)) {source : Expr}
    (hsource : ctx.resolve v = .ok source) {typeName : String} (htype : source.type = .record typeName)
    {bag : Member} (hbag : ctx.schema.bag? typeName = some bag)
    (hfirst : ctx.schema.member? typeName first = none) :
    (rest.length + 1 < ctx.levelsLeft → ∃ e, (node.bind ctx).1 = .ok e) ∧
    ∀ e, (node.bind ctx).1 = .ok e → ∀ env recordType fields start,
      source.eval env = .ok (.record recordType fields) →
      Entries.get? fields bag.name = some start →
      (start = .null ∨ ∃ entries, start = .dictionary entries) → ctx.schema.Complete start →
      e.eval env = (first :: rest).foldlM ctx.schema.lookUp start ∧
      ∀ err, e.eval env = .error err ↔
        ∃ init name last recordType fields, first :: rest = init ++ name :: last ∧
          init.foldlM ctx.schema.lookUp start = .ok (.record recordType fields) ∧
          ctx.schema.hasRecord recordType = false ∧ err = .resourceTypeNotInModel recordType := by
  obtain ⟨entry, hentry, hobject, hfirstEval⟩ := Context.exists_of_open hpropagation htype hbag hfirst
  obtain ⟨e, he, -, heval⟩ := @Context.exists_of_dynamic ctx entry _ hobject rest
  have hbound : (node.bind ctx).1 = if rest.length + 1 < ctx.levelsLeft then .ok e
      else .error (.nestingTooDeep (ctx.depth + ctx.levelsLeft + 1) ctx.settings.maxDepth) := by
    rw [Node.bind_openChain hchain hcomputed, Node.openChainIn, hsource, Outcome.ok_bind,
      List.foldlM_cons, hentry, Outcome.ok_bind, he, List.length_cons]
  refine ⟨fun hlt => ⟨e, by rw [hbound, if_pos hlt]⟩, fun e' he' env recordType fields start hrecord
    hstart hbagged hcomplete => ?_⟩
  obtain rfl : e = e' := by
    rw [hbound] at he'
    split_ifs at he'
    cases he'
    rfl
  have hlookUp := hfirstEval env recordType fields start hrecord hstart hbagged
  have hvalue : e.eval env = (first :: rest).foldlM ctx.schema.lookUp start := by
    rw [heval env fun w hw => hcomplete.lookUp (hlookUp.symm.trans hw), hlookUp, List.foldlM_cons]
  exact ⟨hvalue, fun err => by rw [hvalue]; exact Schema.foldlM_lookUp_eq_error⟩

/-! ### Customers with any properties -/

/-- The clause over customers, which are open, and have addresses among their properties. -/
def openCustomers : Context :=
  .initial ⟨[("Customer", (RecordType.closed "Customer" []).opened "Others"),
    ("Address", .closed "Address" [("City", .string)])], [], []⟩ {} (.record "Customer")

/-- The city of the home of a customer. -/
def homeCity : Node :=
  .openProperty (.openProperty (.rangeVariable ⟨RangeVariable.itName, .entity "Customer" true⟩) "Home")
    "City"

/-- A customer with a home. -/
def customerAt (home : Value) : Value :=
  .record "Customer" [("Others", .dictionary [("Home", home)])]

/-- An address is read as its type declares it, and a dictionary by its entries; a record of a type
that nobody knows is not read. -/
theorem home_city_of_customers : ∃ e, (homeCity.bind openCustomers).1 = .ok e ∧
    e.eval [(0, customerAt (.record "Address" [("City", .string "Oslo")]))] = .ok (.string "Oslo") ∧
    e.eval [(0, customerAt (.dictionary [("City", .string "Oslo")]))] = .ok (.string "Oslo") ∧
    e.eval [(0, customerAt (.record "Cave" []))] = .error (.resourceTypeNotInModel "Cave") := by
  obtain ⟨hbound, hvalue⟩ := @open_chains_look_up _ openCustomers rfl rfl homeCity _ _ _ rfl _ rfl _ rfl
    ⟨"Customer", "Others", .dictionary⟩ (by decide) (by decide)
  obtain ⟨e, he⟩ := hbound (by decide)
  have hone (name : String) {v : Value} (hv : openCustomers.schema.Complete v) (key : String) (w : Value)
      (hw : Entries.get? [(name, v)] key = some w) : openCustomers.schema.Complete w := by
    rw [Entries.get?_cons] at hw
    split_ifs at hw <;> cases hw
    exact hv
  have hcity : ∀ key w, Entries.get? [("City", Value.string "Oslo")] key = some w →
      openCustomers.schema.Complete w :=
    hone "City" (Schema.complete_iff.mpr ⟨(by rintro _ _ ⟨⟩), (by rintro _ _ ⟨⟩)⟩)
  have hlookUp (home : Value) (hhome : openCustomers.schema.Complete home) :
      e.eval [(0, customerAt home)] =
        ["Home", "City"].foldlM openCustomers.schema.lookUp (.dictionary [("Home", home)]) :=
    (hvalue e he _ "Customer" _ _ rfl rfl (.inr ⟨_, rfl⟩) (Schema.complete_iff.mpr
      ⟨(by rintro _ _ ⟨⟩), hone "Home" hhome⟩)).1
  refine ⟨e, he, hlookUp _ (Schema.complete_iff.mpr ⟨?_, hcity⟩),
    hlookUp _ (Schema.complete_iff.mpr ⟨(by rintro _ _ ⟨⟩), hcity⟩),
    hlookUp _ (Schema.complete_iff.mpr ⟨?_, (by rintro _ _ ⟨⟩)⟩)⟩
  · rintro _ _ ⟨⟩ name hname
    by_cases hname' : name = "City"
    · rw [hname']
      rfl
    · have hnone : openCustomers.schema.member? "Address" name = none := by
        change (Entries.get? [("City", HostType.string)] name).bind _ = none
        rw [Entries.get?_cons, if_neg hname']
        rfl
      rw [hnone] at hname
      cases hname
  · rintro _ _ ⟨⟩ name hname
    cases hname

end TypedQuery
