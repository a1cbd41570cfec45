import Mathlib.Data.List.Nodup
import Mathlib.Data.List.Range
import TypedQuery.Proofs.Aggregates
import TypedQuery.Proofs.ScopeFree

/-!
# Nodes over flattened records

Over flattened records, the current record is the source of a flattened record, and a chain of
properties that was flattened is a slot of it. Both have the values that the record and the chain
have without flattening.

* `Flattening.Entered`: the context over flattened records.
* `Flattening.StandsFor`: a flattened record stands for a record.
* **`Flattening.Entered.simulates`**: nodes without nested scopes mean the same over records and over
  flattened records.
-/

namespace TypedQuery

open BindM (Simulates)

/-! ## Entries -/

namespace Entries

variable {α : Type}

theorem mem_insert {es : Entries α} {name : String} {a : α} {p : String × α}
    (h : p ∈ insert es name a) : p = (name, a) ∨ p ∈ es := by
  induction es with
  | nil => exact .inl (List.mem_singleton.mp h)
  | cons e rest ih =>
    obtain ⟨n, b⟩ := e
    unfold insert at h
    split_ifs at h with hn
    · obtain rfl : n = name := by simpa using hn
      exact (List.mem_cons.mp h).imp_right (List.mem_cons_of_mem _)
    · rcases List.mem_cons.mp h with rfl | h
      · exact .inr List.mem_cons_self
      · exact (ih h).imp_right (List.mem_cons_of_mem _)

/-- An entry was given. -/
theorem mem_ofPairs {ps : List (String × α)} {p : String × α} (h : p ∈ ofPairs ps) : p ∈ ps := by
  have run : ∀ (ps : List (String × α)) (es : Entries α),
      p ∈ ps.foldl (fun es p => insert es p.1 p.2) es → p ∈ ps ∨ p ∈ es := by
    intro ps
    induction ps with
    | nil => exact fun es h => .inr h
    | cons q rest ih =>
      intro es h
      rcases ih _ h with hmem | hmem
      · exact .inl (List.mem_cons_of_mem _ hmem)
      · rcases mem_insert hmem with rfl | hmem
        · exact .inl List.mem_cons_self
        · exact .inr hmem
  rcases run ps [] h with hmem | hmem
  · exact hmem
  · cases hmem

theorem mem_of_get?_ofPairs {ps : List (String × α)} {key : String} {b : α}
    (h : get? (ofPairs ps) key = some b) : (key, b) ∈ ps := mem_ofPairs (mem_of_get? h)

end Entries

/-! ## Paths and slots -/

namespace Flattening

theorem mem_paths {aggregates : List AggregateExpr} {p : String × Node}
    (h : p ∈ paths aggregates) : ∃ a ∈ aggregates, pathOf? a = some p := by
  have run : ∀ (ps : List (String × Node)) (es : Entries Node),
      p ∈ ps.foldl addPath es → p ∈ ps ∨ p ∈ es := by
    intro ps
    induction ps with
    | nil => exact fun es h => .inr h
    | cons q rest ih =>
      intro es h
      rcases ih _ h with hmem | hmem
      · exact .inl (List.mem_cons_of_mem _ hmem)
      · unfold addPath at hmem
        split_ifs at hmem
        · exact .inr hmem
        · rcases List.mem_append.mp hmem with hmem | hmem
          · exact .inr hmem
          · rw [List.mem_singleton.mp hmem]
            exact .inl List.mem_cons_self
  rcases run _ [] h with hmem | hmem
  · exact List.mem_filterMap.mp hmem
  · cases hmem

/-- What a path that aggregates reach through navigation is: the chain of an input. -/
theorem pathOf?_eq_some {a : AggregateExpr} {key : String} {node : Node}
    (h : pathOf? a = some (key, node)) :
    ∃ method name path, a = .property ⟨method, some node, name⟩ ∧ node.path? = some path ∧ path ≠ [] ∧
      key = Node.pathKey path := by
  unfold pathOf? at h
  split at h
  · rename_i method input name
    split_ifs at h with hcross
    obtain ⟨path, hpath, heq⟩ := Option.map_eq_some_iff.mp h
    cases heq
    refine ⟨method, name, path, rfl, hpath, ?_, rfl⟩
    rintro rfl
    cases node with
    | property source name kind =>
      obtain ⟨init, -, hnil⟩ := Option.map_eq_some_iff.mp hpath
      simp at hnil
    | _ => cases hcross
  · cases h

theorem mem_named {bound : Entries Expr} {slot : String × String × Expr}
    (h : slot ∈ named bound) : (slot.1, slot.2.2) ∈ bound := by
  obtain ⟨⟨⟨key, e⟩, i⟩, hmem, rfl⟩ := List.mem_map.mp h
  exact List.mem_reverse.mp (List.fst_mem_of_mem_zipIdx hmem)

/-- Numbered names are different. -/
theorem numbered_injective (label : String) : Function.Injective fun i : Nat => label ++ toString i := by
  intro i j h
  have hchars : i.repr.toList = j.repr.toList := by simpa using congrArg String.toList h
  rw [Nat.toList_repr, Nat.toList_repr] at hchars
  simpa using congrArg (fun cs => Nat.ofDigitChars 10 cs 0) hchars

/-- The slots are numbered from the outermost on. -/
theorem names_named (bound : Entries Expr) :
    (named bound).map (fun s => s.2.1) =
      (List.range bound.length).map fun i => "Property" ++ toString i := by
  rw [List.range_eq_range', ← List.length_reverse, ← List.zipIdx_map_snd, named, List.map_map,
    List.map_map]
  rfl

/-- The names of slots are different. -/
theorem named_nodup (bound : Entries Expr) : ((named bound).map fun s => s.2.1).Nodup := by
  rw [names_named]
  exact List.nodup_range.map (numbered_injective _)

/-! ## Reads of flattened records -/

/-- The chain of slots of a flattened record, as an expression. -/
def slotsExpr (p : Param) : Expr :=
  .member (.param p) ⟨p.type.text, WrapperMember.container.text, .container⟩

section Reads

variable [External] {p : Param} {env : Env} {item : Value} {values : List (String × Value)}
  (h : env.lookup p.id = some (.wrapper (.flattening item (.container values))))
include h

theorem slot_eval (name : String) (type : HostType) :
    (Expr.slot (slotsExpr p) name type).eval env = (Value.container values).slot name := by
  simp only [slotsExpr, Expr.eval, h, orFail, Outcome.ok_bind]
  rfl

theorem source_eval (type : HostType) :
    (Expr.member (.param p) ⟨p.type.text, WrapperMember.source.text, type⟩).eval env = .ok item := by
  simp only [Expr.eval, h, orFail, Outcome.ok_bind]
  rfl

end Reads

/-! ## The context over flattened records -/

/-- The slots hold the chains of properties from the current record on, each under its key. -/
def SlotsOf (ctx : Context) (chains : List String → Prop) (slots : List (String × String × Expr)) :
    Prop :=
  ∀ s ∈ slots, ∃ path, chains path ∧ path ≠ [] ∧ s.1 = Node.pathKey path ∧
    ctx.pathExpr path = .ok s.2.2

/-- The second context is the first one over flattened records. -/
structure Entered (ctx d : Context) (slots : List (String × String × Expr)) : Prop where
  schema : d.schema = ctx.schema
  settings : d.settings = ctx.settings
  scope : d.scope = ctx.scope
  computed : d.computed = ctx.computed
  flatteningSource : d.flatteningSource = some ctx.current.type
  flattened : d.flattened = slotReads d.current slots

/-- A flattened record stands for a record: it has the record and the values of its chains. -/
def StandsFor [External] (ctx : Context) (slots : List (String × String × Expr)) (flat item : Value) : Prop :=
  ∃ values, flat = .wrapper (.flattening item (.container values)) ∧
    ∀ s ∈ slots, ∃ v, s.2.2.eval [(ctx.current.id, item)] = .ok v ∧
      Entries.get? values s.2.1 = some v

/-- The current record of the second environment stands for that of the first. -/
def Stands [External] (ctx d : Context) (slots : List (String × String × Expr)) (env₁ env₂ : Env) : Prop :=
  ∃ flat item, StandsFor ctx slots flat item ∧ env₁.lookup ctx.current.id = some item ∧
    env₂.lookup d.current.id = some flat

theorem StandsFor.stands [External] {ctx d : Context} {slots : List (String × String × Expr)}
    {flat item : Value} (h : StandsFor ctx slots flat item) (env₁ env₂ : Env) :
    Stands ctx d slots ((ctx.current.id, item) :: env₁) ((d.current.id, flat) :: env₂) :=
  ⟨flat, item, h, by simp, by simp⟩

namespace Entered

variable [External] {ctx d : Context} {slots : List (String × String × Expr)} {chains : List String → Prop}
  (hfresh : ctx.Fresh) (h : Entered ctx d slots)
include hfresh h

theorem agree_current :
    Expr.Agree ctx d (Stands ctx d slots) (.param ctx.current) d.currentExpr := by
  have hcurrent : d.currentExpr = .member (.param d.current) (d.sourceMember ctx.current.type) := by
    unfold Context.currentExpr
    rw [h.flatteningSource]
  have hunflattened : ctx.isFlattened = false := by
    simp [Context.isFlattened, hfresh.flatteningSource]
  rw [hcurrent]
  refine ⟨rfl, rfl, rfl, rfl, ?_, rfl, rfl, fun hf => ?_, fun _ => Expr.noConfusion, ?_, .param _⟩
  · simp [Context.isCurrent, h.flatteningSource]
  · rw [hunflattened] at hf
    cases hf
  · rintro env₁ env₂ ⟨flat, item, ⟨values, rfl, -⟩, hitem, hflat⟩
    rw [Context.sourceMember, source_eval hflat]
    simp only [Expr.eval, hitem, orFail]

/-- Variables stand for the current record, flattened or not. -/
theorem corresponds : Context.Corresponds (fun _ => False) (Stands ctx d slots) ctx d := by
  refine ⟨h.schema.symm, h.settings.symm, h.computed.symm, fun v => ?_⟩
  have hagree := h.agree_current hfresh
  have hcurrent := Context.currentExpr_of_none hfresh.flatteningSource
  have hflat : d.isFlattened = true := by simp [Context.isFlattened, h.flatteningSource]
  unfold Context.resolve
  rw [hcurrent, h.scope, hfresh.scope]
  split_ifs with hthis hit hroot hroot' hroot'
  · exact hagree
  · exact hagree
  · exact absurd (.inl hflat) hroot'
  · exact absurd (.inr (.inl hfresh.root)) hroot
  · exact absurd (.inr (.inl hfresh.root)) hroot
  · exact fun hfalse => hfalse.elim

omit h in
/-- The read of a slot agrees with the chain that the slot holds. -/
theorem agree_read {path : List String} {s : String × String × Expr} (hs : s ∈ slots)
    (hpath : path ≠ []) (he : ctx.pathExpr path = .ok s.2.2) :
    Expr.Agree ctx d (Stands ctx d slots) s.2.2
      (.slot (slotsExpr d.current) s.2.1 s.2.2.type) := by
  obtain ⟨hconst, hlambda, hcurrent⟩ := hfresh.pathExpr_plain hpath he
  -- the chain looks at the current record only
  have hself := hfresh.pathExpr_agree he
  refine .of_eval hself.sound rfl hconst rfl hlambda rfl hcurrent rfl ?_
  rintro env₁ env₂ ⟨flat, item, ⟨values, rfl, hvalues⟩, hitem, hflat⟩
  obtain ⟨v, hv, hget⟩ := hvalues s hs
  have hlocal : s.2.2.eval env₁ = s.2.2.eval [(ctx.current.id, item)] :=
    hself.eval (by simp [Context.Fresh.SameCurrent, hitem])
  rw [hlocal, hv, slot_eval hflat, Value.slot, hget]
  rfl

/-- A property that was flattened agrees with the chain that it ends. -/
theorem property (hkeys : ∀ p q, chains p → chains q → Node.pathKey p = Node.pathKey q → p = q)
    (hslots : SlotsOf ctx chains slots) {levels : Nat} {source : Node} {name : String}
    {kind : PropertyKind}
    (hpath : ∀ path, (Node.property source name kind).path? = some path → chains path)
    (hs : Simulates (ctx.Within d) (fun _ => False) (Expr.Agree ctx d (Stands ctx d slots))
      (source.bindWithin levels) (source.bindWithin levels)) :
    Simulates (ctx.Within d) (fun _ => False) (Expr.Agree ctx d (Stands ctx d slots))
      (Bind.property (Node.bindWithin levels) (.property source name kind) source name)
      (Bind.property (Node.bindWithin levels) (.property source name kind) source name) := by
  cases hread : d.flattenedRead? (.property source name kind) with
  | none =>
    refine (h.corresponds hfresh).simulation.property name (fun hc => ?_) hs
    rw [hc.left.flattenedRead, hc.right.flattenedRead, hfresh.flattenedRead, hread]
    exact ⟨rfl, rfl⟩
  | some read =>
    refine ⟨fun {c₁ c₂ e c₁'} hc he => ?_, fun _ _ hfalse => hfalse.elim⟩
    obtain ⟨path, hp, hget⟩ := Option.bind_eq_some_iff.mp hread
    rw [h.flattened] at hget
    obtain ⟨s, hmem, heq⟩ := List.mem_map.mp (Entries.mem_of_get?_ofPairs hget)
    obtain ⟨hsKey, rfl⟩ := Prod.mk.inj heq
    -- the slot holds the chain that the property ends
    obtain ⟨path', hchain, hne, hkey, hexpr⟩ := hslots s hmem
    obtain rfl := hkeys path path' (hpath path hp) hchain (hsKey.symm.trans hkey)
    obtain ⟨init, hinit, rfl⟩ := Option.map_eq_some_iff.mp hp
    have hbound := hfresh.property_path hc.left (Node.bindWithin_keeps levels source)
      (fun hs => hfresh.bindWithin_path hc.left hinit hs) he
    rw [hexpr] at hbound
    cases hbound
    have hframe := Bind.property_keeps (Node.bindWithin_keeps levels) (.property source name kind)
      source name c₁
    rw [he] at hframe
    refine ⟨_, c₂, ?_, agree_read hfresh hmem hne hexpr, hframe, Context.Frame.refl c₂⟩
    have hctx : BindM.context c₂ = (.ok c₂, c₂) := rfl
    refine (BindM.bind_of_ok hctx).trans ?_
    rw [hc.right.flattenedRead, hread]
    rfl

/-- **Nodes without nested scopes agree over flattened records.** -/
theorem simulates (hkeys : ∀ p q, chains p → chains q → Node.pathKey p = Node.pathKey q → p = q)
    (hslots : SlotsOf ctx chains slots) {node : Node} (hnode : node.ScopeFree chains) :
    Simulates (ctx.Within d) (fun _ => False) (Expr.Agree ctx d (Stands ctx d slots)) node.bind
      node.bind :=
  Node.bind_simulates (h.corresponds hfresh).settings fun levels => (h.corresponds hfresh).scopeFree hfresh.computed
    (fun _ _ _ _ hpath hs => h.property hfresh hkeys hslots hpath hs) hnode levels

end Entered

end Flattening

end TypedQuery
