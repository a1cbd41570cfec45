import Mathlib.Data.List.Nodup
import Mathlib.Data.List.Range
import TypedQuery.Proofs.Atomicity
import TypedQuery.Proofs.FlattenedRows

/-!
# Slots of flattened records

The paths that aggregates reach through navigation are collected in one pass, bound in a second one,
turned round and numbered in a third, and kept in a map of their own. All four stay aligned: the slot
that is read for a path is the one that holds what the path is bound to.

* `Transformation.joinedPaths`: the paths, each once, in the order in which they are mentioned first.
* `Flattening.forall₂_of_bindPaths`: paths are bound one by one, and the context stays as it is.
* `Flattening.mem_named_of_getElem?`: the slot that a path gets.
* **`flattening_slots_are_exact`**: the slots, the map and what is read from a flattened record.
-/

namespace TypedQuery

/-! ## Entries -/

namespace Entries

variable {α : Type}

/-- Names that are different are all kept, in their order. -/
theorem ofPairs_of_nodup {ps : List (String × α)} (h : (names ps).Nodup) : ofPairs ps = ps := by
  have run (ps : List (String × α)) (es : Entries α) (h : (names (es ++ ps)).Nodup) :
      ps.foldl (fun es p => insert es p.1 p.2) es = es ++ ps := by
    induction ps generalizing es with
    | nil => simp
    | cons p rest ih =>
      have hnew : get? es p.1 = none := by
        rw [names, List.map_append, List.map_cons, List.nodup_append] at h
        cases hget : get? es p.1 with
        | none => rfl
        | some a => exact absurd rfl (h.2.2 _ (List.mem_map_of_mem (mem_of_get? hget)) _ (by simp))
      rw [List.foldl_cons, insert_of_get?_none _ hnew, ih _ (by simpa using h), List.append_assoc]
      rfl
  exact run ps [] h

end Entries

/-! ## Paths that are mentioned -/

namespace Transformation

/-- The inputs of aggregates that lead through navigation, as they are mentioned, each under its joined
path. -/
def navigationInputs (t : Transformation) : Entries Node := t.aggregates.filterMap Flattening.pathOf?

/-- The joined paths of these inputs, each once, in the order in which they are mentioned first. -/
def joinedPaths (t : Transformation) : List String := (Entries.names t.navigationInputs).eraseDups

end Transformation

namespace Flattening

theorem has_eq_decide {α : Type} (es : Entries α) (name : String) :
    Entries.has es name = decide (name ∈ Entries.names es) := by
  rw [Bool.eq_iff_iff, decide_eq_true_iff, Entries.has]
  constructor
  · intro h
    obtain ⟨a, ha⟩ := Option.isSome_iff_exists.mp h
    exact List.mem_map.mpr ⟨_, Entries.mem_of_get? ha, rfl⟩
  · intro h
    obtain ⟨a, ha⟩ := Entries.exists_of_mem_names h
    rw [ha]
    rfl

/-- **Paths are kept in the order in which they are mentioned first.** -/
theorem names_paths (aggregates : List AggregateExpr) :
    Entries.names (paths aggregates) = (Entries.names (aggregates.filterMap pathOf?)).eraseDups := by
  unfold paths
  induction aggregates.filterMap pathOf? using List.reverseRecOn with
  | nil => rfl
  | append_singleton mentioned p ih =>
    have happend (es : Entries Node) : Entries.names (es ++ [p]) = Entries.names es ++ [p.1] := by
      simp [Entries.names]
    have hmem : p.1 ∈ Entries.names (mentioned.foldl addPath []) ↔ p.1 ∈ Entries.names mentioned := by
      rw [ih, List.mem_eraseDups]
    rw [List.foldl_append, List.foldl_cons, List.foldl_nil, addPath, has_eq_decide, happend,
      List.eraseDups_append, ← ih, List.removeAll, List.filter_singleton]
    by_cases h : p.1 ∈ Entries.names mentioned
    · simp [hmem, h]
    · simp [hmem, h, happend, List.eraseDups_cons]

/-- Paths are different. -/
theorem nodup_names_paths (aggregates : List AggregateExpr) :
    (Entries.names (paths aggregates)).Nodup := by
  unfold paths
  induction aggregates.filterMap pathOf? using List.reverseRecOn with
  | nil => exact List.nodup_nil
  | append_singleton mentioned p ih =>
    rw [List.foldl_append, List.foldl_cons, List.foldl_nil, addPath, has_eq_decide]
    split_ifs with h
    · exact ih
    · have hnew : p.1 ∉ Entries.names (mentioned.foldl addPath []) := by simpa using h
      rw [Entries.names, List.map_append, List.nodup_append_comm]
      exact List.nodup_cons.mpr ⟨hnew, ih⟩

/-- **The first mention of a path counts.** -/
theorem get?_paths (aggregates : List AggregateExpr) (key : String) :
    Entries.get? (paths aggregates) key = Entries.get? (aggregates.filterMap pathOf?) key := by
  unfold paths
  induction aggregates.filterMap pathOf? using List.reverseRecOn with
  | nil => rfl
  | append_singleton mentioned p ih =>
    have happend (es : Entries Node) :
        Entries.get? (es ++ [p]) key = (Entries.get? es key).or (Entries.get? [p] key) :=
      List.lookup_append
    rw [List.foldl_append, List.foldl_cons, List.foldl_nil, addPath, happend, ← ih]
    split_ifs with h
    · -- a path that is there has the key already
      cases hkey : Entries.get? (mentioned.foldl addPath []) key with
      | some node => rfl
      | none =>
        have hne : key ≠ p.1 := by
          rintro rfl
          rw [Entries.has, hkey] at h
          cases h
        rw [Option.none_or, Entries.get?_cons, if_neg hne]
        rfl
    · exact happend _

end Flattening

/-! ## Paths that are bound -/

/-- A chain of properties leaves the context as it is, counters included. -/
theorem Node.bindWithin_path_context {node : Node} {path : List String} (hpath : node.path? = some path)
    (levels : Nat) (ctx : Context) : (node.bindWithin levels ctx).2 = ctx := by
  induction levels generalizing node path ctx with
  | zero => rfl
  | succ levels ih =>
    have hinside : (Bind.step (Node.bindWithin levels) node ctx.deeper).2 = ctx.deeper := by
      cases node with
      | rangeVariable v => rfl
      | property source name kind =>
        obtain ⟨init, hinit, -⟩ := Option.map_eq_some_iff.mp hpath
        have hsource := ih hinit ctx.deeper
        have hcontext : BindM.context ctx.deeper = (.ok ctx.deeper, ctx.deeper) := rfl
        rw [Bind.step, Bind.property, BindM.bind_of_ok hcontext]
        cases ctx.deeper.flattenedRead? (.property source name kind) with
        | some read => rfl
        | none =>
          rcases hs : source.bindWithin levels ctx.deeper with ⟨e | s, c⟩ <;> rw [hs] at hsource
          · exact (congrArg Prod.snd (BindM.bind_of_error hs)).trans hsource
          · exact (congrArg Prod.snd (BindM.bind_of_ok hs)).trans hsource
      | _ => cases hpath
    rw [Node.bindWithin]
    by_cases hlt : ctx.depth < ctx.settings.maxDepth
    · rw [BindM.descend_of_lt hlt, hinside]
      rfl
    · rw [BindM.descend_of_le (Nat.le_of_not_lt hlt)]

/-- A chain of properties that has an entry among the flattened ones is bound to that entry. -/
theorem Node.bind_of_flattenedRead {source : Node} {name : String} {kind : PropertyKind} {ctx : Context}
    {read : Expr} (hlt : ctx.depth < ctx.settings.maxDepth)
    (hread : ctx.flattenedRead? (.property source name kind) = some read) :
    ((Node.property source name kind).bind ctx).1 = .ok read := by
  have hcontext : BindM.context ctx.deeper = (.ok ctx.deeper, ctx.deeper) := rfl
  have hdeeper : ctx.deeper.flattenedRead? (.property source name kind) = some read := hread
  rw [Node.bind_of_lt _ hlt, Bind.step, Bind.property, BindM.bind_of_ok hcontext, hdeeper]
  rfl

namespace Flattening

/-- Every path of aggregates is a chain that ends in a property. -/
theorem isProperty_of_pathOf? {a : AggregateExpr} {key : String} {node : Node}
    (h : pathOf? a = some (key, node)) :
    ∃ source name kind path, node = .property source name kind ∧ node.path? = some path ∧
      key = Node.pathKey path := by
  obtain ⟨-, -, path, -, hpath, hne, hkey⟩ := pathOf?_eq_some h
  cases node with
  | property source name kind => exact ⟨source, name, kind, path, rfl, hpath, hkey⟩
  | rangeVariable v =>
    cases hpath
    contradiction
  | _ => cases hpath

/-- **Paths are bound one by one**, each as in the context before all of them. -/
theorem forall₂_of_bindPaths {ps : Entries Node} (hps : ∀ p ∈ ps, ∃ path, p.2.path? = some path)
    {ctx c : Context} {bound : Entries Expr} (h : bindPaths ps ctx = (.ok bound, c)) :
    c = ctx ∧ List.Forall₂ (fun p b => p.1 = b.1 ∧ p.2.bind ctx = (.ok b.2, ctx)) ps bound := by
  induction ps generalizing bound with
  | nil =>
    cases h
    exact ⟨rfl, .nil⟩
  | cons p rest ih =>
    obtain ⟨path, hpath⟩ := hps p List.mem_cons_self
    obtain ⟨e, c₁, he, h⟩ := BindM.exists_of_bind_eq_ok h
    obtain ⟨es, c₂, hes, h⟩ := BindM.exists_of_bind_eq_ok h
    cases h
    obtain rfl : c₁ = ctx := by
      have hcontext := Node.bindWithin_path_context hpath ctx.levelsLeft ctx
      rwa [show p.2.bindWithin ctx.levelsLeft ctx = _ from he] at hcontext
    obtain ⟨rfl, hrest⟩ := ih (fun q hq => hps q (List.mem_cons_of_mem _ hq)) hes
    exact ⟨rfl, .cons ⟨rfl, he⟩ hrest⟩

/-- The names of paths that are bound are the names of the paths. -/
theorem names_eq_of_forall₂ {ps : Entries Node} {bound : Entries Expr}
    (h : List.Forall₂ (fun p b => p.1 = b.1) ps bound) :
    Entries.names ps = Entries.names bound := by
  induction h with
  | nil => rfl
  | cons hp _ ih => exact congrArg₂ List.cons hp ih

/-! ## Slots that are numbered -/

/-- The name of a slot by its place in the chain, from the outermost slot on. -/
def slotName (i : Nat) : String := "Property" ++ toString i

/-- The paths of slots are those that were bound, from the last one on. -/
theorem keys_named (bound : Entries Expr) :
    (named bound).map Prod.fst = (Entries.names bound).reverse := by
  have hkeys : (named bound).map Prod.fst = (bound.reverse.zipIdx.map Prod.fst).map Prod.fst := by
    rw [named, List.map_map, List.map_map]
    rfl
  rw [hkeys, List.zipIdx_map_fst, List.map_reverse, Entries.names]

/-- **The slot that a path gets**: the last path has the outermost one. -/
theorem mem_named_of_getElem? {bound : Entries Expr} {i : Nat} {key : String} {e : Expr}
    (h : bound[i]? = some (key, e)) : (key, slotName (bound.length - 1 - i), e) ∈ named bound := by
  have hlt : i < bound.length := (List.getElem?_eq_some_iff.mp h).1
  refine List.mem_map.mpr ⟨((key, e), bound.length - 1 - i), ?_, rfl⟩
  refine List.mem_of_getElem? (i := bound.length - 1 - i) ?_
  rw [List.getElem?_zipIdx, List.getElem?_reverse (by omega),
    show bound.length - 1 - (bound.length - 1 - i) = i by omega, h, Nat.zero_add]
  rfl

/-- The map has an entry for each slot, in the order of the slots. -/
theorem slotReads_named (p : Param) {bound : Entries Expr} (h : (Entries.names bound).Nodup) :
    slotReads p (named bound) =
      (named bound).map fun s => (s.1, .slot (slotsExpr p) s.2.1 s.2.2.type) := by
  refine Entries.ofPairs_of_nodup ?_
  rw [Entries.names, List.map_map]
  change ((named bound).map Prod.fst).Nodup
  rw [keys_named]
  exact List.nodup_reverse.mpr h

/-- What stands for a path reads the slot of the path. -/
theorem get?_slotReads (p : Param) {bound : Entries Expr} (h : (Entries.names bound).Nodup)
    {s : String × String × Expr} (hs : s ∈ named bound) :
    Entries.get? (slotReads p (named bound)) s.1 = some (.slot (slotsExpr p) s.2.1 s.2.2.type) := by
  rw [slotReads_named p h]
  refine Entries.get?_of_mem ?_ (List.mem_map_of_mem hs)
  rw [List.map_map]
  change ((named bound).map Prod.fst).Nodup
  rw [keys_named]
  exact List.nodup_reverse.mpr h

/-- What a flattened record is read for: the record itself, and the values of slots. -/
theorem exists_of_flatteningLambda [External] {c : Context} (hsource : c.flatteningSource = none)
    {bound : Entries Expr} (hne : bound ≠ []) {env : Env} {item row : Value}
    (h : Expr.function (Transformation.flatteningLambda c bound) env item = .ok row) :
    ∃ values, row = .wrapper (.flattening item (.container values)) ∧
      ∀ s ∈ named bound, ∃ v, s.2.2.eval ((c.current.id, item) :: env) = .ok v ∧
        Entries.get? values s.2.1 = some v := by
  have hrow := Transformation.flatteningLambda_eval hsource hne env item
  rw [h] at hrow
  obtain ⟨values, hvalues, rfl⟩ := Option.map_eq_some_iff.mp hrow.symm
  obtain ⟨hnames, hslots⟩ := Expr.evalSlots_eq_ok (Outcome.toOption_eq_some.mp hvalues)
  refine ⟨values, rfl, fun s hs => ?_⟩
  obtain ⟨v, hv, hmem⟩ := hslots (s.2.1, s.2.2) (List.mem_map.mpr ⟨s, hs, rfl⟩)
  refine ⟨v, hv, Entries.get?_of_mem ?_ hmem⟩
  rw [hnames, List.map_map]
  exact named_nodup bound

end Flattening

/-! ## The flattening of a collection -/

/-- **The slots of flattened records are exact.** Let a transformation be flattened, with `k` joined
paths. The map has the paths as its keys, the last one first; the container has the slots 0 to `k - 1`
in this order; and the path with the place `i` has the slot `k - 1 - i`, which holds what its first
mention is bound to, and is bound to the read of this slot from then on. Where the projection gives a
flattened record of an item, the read of a path gives the value that the bound path has at the item,
and the source gives the item. -/
theorem flattening_slots_are_exact [External] {t : Transformation} {source : Expr} {ctx after : Context}
    {f : Flattening} (h : t.flatten source ctx = (.ok (some f), after)) :
    ∃ (bound : Entries Expr) (slots : List (String × Expr)),
      Entries.names bound = t.joinedPaths ∧
      Entries.names f.reads = t.joinedPaths.reverse ∧ after.flattened = f.reads ∧
      f.lambda = ⟨ctx.current, .wrapper (.flattening (.param ctx.current) (.container slots))⟩ ∧
      f.source = .mkCollection .select [source, f.lambda.toExpr] ∧
      Entries.names slots = (List.range bound.length).map Flattening.slotName ∧
      (∀ i path e, bound[i]? = some (path, e) → ∃ node read,
        Entries.get? t.navigationInputs path = some node ∧ node.bind ctx = (.ok e, ctx) ∧
        Entries.get? slots (Flattening.slotName (bound.length - 1 - i)) = some e ∧
        read = .slot (Flattening.slotsExpr f.param) (Flattening.slotName (bound.length - 1 - i)) e.type ∧
        Entries.get? f.reads path = some read ∧ (node.bind after).1 = .ok read ∧
        ∀ env item row, f.lambda.body.eval ((ctx.current.id, item) :: env) = .ok row →
          ∀ env', read.eval ((f.param.id, row) :: env') = e.eval ((ctx.current.id, item) :: env)) ∧
      ∀ env item row, f.lambda.body.eval ((ctx.current.id, item) :: env) = .ok row →
        ∀ env', after.currentExpr.eval ((f.param.id, row) :: env') = .ok item := by
  obtain ⟨-, hnone, -⟩ | ⟨hflat, bound, c, p, hpaths, rfl, rfl, l, rfl, hf⟩ :=
    Transformation.flatten_cases h
  · cases hnone
  cases hf
  -- the paths are bound one by one, and their names are those of the map
  obtain ⟨hmay, hsome⟩ := Bool.and_eq_true_iff.mp hflat
  have hchains (q : String × Node) (hq : q ∈ Flattening.paths t.aggregates) :=
    (Flattening.mem_paths hq).elim fun _ ha => Flattening.isProperty_of_pathOf? ha.2
  obtain ⟨rfl, hbound⟩ := Flattening.forall₂_of_bindPaths
    (fun q hq => (hchains q hq).elim fun _ ⟨_, _, path, _, hpath, _⟩ => ⟨path, hpath⟩) hpaths
  have hnames : Entries.names bound = t.joinedPaths := by
    rw [Transformation.joinedPaths, Transformation.navigationInputs, ← Flattening.names_paths]
    exact (Flattening.names_eq_of_forall₂ (hbound.imp fun _ _ h => h.1)).symm
  have hnodup : (Entries.names bound).Nodup := by
    rw [← Flattening.names_eq_of_forall₂ (hbound.imp fun _ _ h => h.1)]
    exact Flattening.nodup_names_paths t.aggregates
  have hreads := Flattening.slotReads_named (c.newParam RangeVariable.itName (.wrapper .flattening)) hnodup
  have hne : bound ≠ [] := by
    rintro rfl
    rw [List.forall₂_nil_right_iff.mp hbound] at hsome
    cases hsome
  have hsource : c.flatteningSource = none := by
    simp only [Transformation.mayFlatten, Context.isFlattened, Bool.and_eq_true] at hmay
    simpa using hmay.1.1.1
  have hslots : Entries.names ((Flattening.named bound).map fun s => (s.2.1, s.2.2)) =
      (Flattening.named bound).map fun s => s.2.1 := by
    rw [Entries.names, List.map_map]
    rfl
  refine ⟨bound, (Flattening.named bound).map fun s => (s.2.1, s.2.2), hnames, ?_, rfl, ?_, rfl, ?_,
    fun i path e hi => ?_, fun env item row hrow env' => ?_⟩
  · dsimp only
    rw [hreads, ← hnames, ← Flattening.keys_named, Entries.names, List.map_map]
    rfl
  · rw [← Flattening.chain_named hne, Context.currentExpr_of_none hsource]
  · rw [hslots, Flattening.names_named]
    rfl
  · have hmem := Flattening.mem_named_of_getElem? hi
    -- the path was mentioned, and its first mention was bound
    obtain ⟨⟨_, node⟩, hpair, rfl, hnode⟩ := Outcome.forall₂_mem hbound.flip (List.mem_of_getElem? hi)
    obtain ⟨inner, name, kind, path, rfl, hpath, rfl⟩ := hchains _ hpair
    have hread := Flattening.get?_slotReads (c.newParam RangeVariable.itName (.wrapper .flattening))
      hnodup hmem
    have hlt := Node.lt_of_bind_eq_ok (congrArg Prod.fst hnode)
    refine ⟨_, _, ?_, hnode, ?_, rfl, hread, Node.bind_of_flattenedRead hlt ?_,
      fun env item row hrow env' => ?_⟩
    · rw [Transformation.navigationInputs, ← Flattening.get?_paths]
      exact Entries.get?_of_mem (Flattening.nodup_names_paths _) hpair
    · refine Entries.get?_of_mem ?_ (List.mem_map_of_mem hmem)
      rw [List.map_map]
      exact Flattening.named_nodup bound
    · exact Option.bind_eq_some_iff.mpr ⟨path, hpath, hread⟩
    · obtain ⟨values, rfl, hvalues⟩ :=
        Flattening.exists_of_flatteningLambda hsource hne hrow
      obtain ⟨v, hv, hget⟩ := hvalues _ hmem
      rw [Flattening.slot_eval List.lookup_cons_self, Value.slot, hget, hv]
      rfl
  · obtain ⟨values, rfl, -⟩ := Flattening.exists_of_flatteningLambda hsource hne hrow
    exact Flattening.source_eval List.lookup_cons_self _

/-- The price of the product is reached twice, and the product itself in between. -/
def salesByProduct : Transformation :=
  .groupBy [.mk "By" (some (.property saleNode "Year" .single)) []]
    [.property ⟨.sum, some (.property (.property saleNode "Product" .navigation) "Price" .single), "Total"⟩,
      .property ⟨.countDistinct, some (.property saleNode "Product" .navigation), "Products"⟩,
      .property ⟨.max, some (.property (.property saleNode "Product" .navigation) "Price" .single), "Top"⟩]

theorem flattening_slots_of_sales :
    ∃ f after, salesByProduct.flatten (sales "Year") (saleContext "Year") = (.ok (some f), after) ∧
      Entries.names f.reads = ["Product", "Product\\Price"] ∧
      ∃ slots : List (String × Expr),
        f.lambda.body = .wrapper (.flattening (.param (saleContext "Year").current) (.container slots)) ∧
        Entries.names slots = ["Property0", "Property1"] := by
  have hpaths : salesByProduct.joinedPaths = ["Product\\Price", "Product"] := by decide +kernel
  have hok : ((salesByProduct.flatten (sales "Year") (saleContext "Year")).1.toOption.bind id).isSome
      = true := by decide +kernel
  rcases hf : salesByProduct.flatten (sales "Year") (saleContext "Year") with ⟨e | _ | f, after⟩ <;>
    rw [hf] at hok
  · cases hok
  · cases hok
  obtain ⟨bound, slots, hbound, hreads, -, hlambda, -, hslots, -⟩ := flattening_slots_are_exact hf
  have hlength : bound.length = 2 := by
    rw [← List.length_map (f := Prod.fst), show bound.map Prod.fst = _ from hbound, hpaths]
    rfl
  refine ⟨f, after, rfl, by rw [hreads, hpaths]; rfl, slots, congrArg Lambda.body hlambda, ?_⟩
  rw [hslots, hlength]
  decide +kernel

end TypedQuery
