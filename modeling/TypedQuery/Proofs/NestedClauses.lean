import TypedQuery.Proofs.Atomicity
import TypedQuery.Proofs.FlattenedRows
import TypedQuery.Proofs.Locality
import TypedQuery.Proofs.RootRecord

/-!
# Nested clauses over flattened records

A nested clause has a record of its own, and nothing that flattening has put in place of a property
reaches into it. What it shares with the clause around it are the variables of quantifiers and the
root record. Flattening replaces the root record of a top-level clause by the flattened record, so
that the name of the root record stands for the flattened record in nested clauses
(`Context.Enclosed.resolve_root`); this is the only difference: a node that does not look at the root
record means the same (**`nested_clauses_keep_all_but_the_root`**).

* `Context.Parallel`: contexts whose variables are in pairs, one and one.
* `Context.Enclosed`: what stands in the same place inside two contexts.
* `BindM.IgnoresRoot`: a computation that does not look at the root record.
* `Context.Child.simulates`: such a computation in two nested clauses.
-/

namespace TypedQuery

open BindM (Simulates Keeps)

namespace Context

/-! ## Matchings -/

/-- A matching with one more pair, whose numbers are in use by no other. -/
theorem Matching.insert {P Q : Param → Param → Prop} {n₁ n₂ : Nat} (h : Matching P n₁ n₂)
    (q₁ q₂ : Param) (htype : q₁.type = q₂.type) (hname : q₁.name = q₂.name) (hlt₁ : q₁.id < n₁)
    (hlt₂ : q₂.id < n₂) (hother : ∀ {p₁ p₂}, P p₁ p₂ → p₁.id ≠ q₁.id ∧ p₂.id ≠ q₂.id)
    (hQ : ∀ {p₁ p₂}, Q p₁ p₂ → P p₁ p₂ ∨ p₁ = q₁ ∧ p₂ = q₂) : Matching Q n₁ n₂ := by
  refine ⟨fun hp => ?_, fun hp => ?_, fun hp => ?_, fun hp => ?_, fun hp hq heq => ?_⟩
  · rcases hQ hp with hp | ⟨rfl, rfl⟩
    · exact h.type hp
    · exact htype
  · rcases hQ hp with hp | ⟨rfl, rfl⟩
    · exact h.name hp
    · exact hname
  · rcases hQ hp with hp | ⟨rfl, rfl⟩
    · exact h.left_lt hp
    · exact hlt₁
  · rcases hQ hp with hp | ⟨rfl, rfl⟩
    · exact h.right_lt hp
    · exact hlt₂
  · rcases hQ hp with hp | ⟨rfl, rfl⟩ <;> rcases hQ hq with hq | ⟨rfl, rfl⟩
    · exact h.unique hp hq heq
    · exact (heq.elim (hother hp).1 (hother hp).2).elim
    · exact (heq.elim (Ne.symm (hother hq).1) (Ne.symm (hother hq).2)).elim
    · exact ⟨rfl, rfl⟩

/-! ## Contexts with the same variables -/

/-- The parameters of a variable in two contexts. -/
def Shared (c₁ c₂ : Context) (p₁ p₂ : Param) : Prop :=
  ∃ name, Entries.get? c₁.scope name = some p₁ ∧ Entries.get? c₂.scope name = some p₂

/-- The parameters of the current record and of the root record have numbers that no variable has. -/
structure Apart (ctx : Context) : Prop where
  current_lt : ctx.current.id < ctx.nextId
  root_lt : ctx.root.id < ctx.nextId
  ne_current : ∀ {name p}, Entries.get? ctx.scope name = some p → p.id ≠ ctx.current.id
  ne_root : ∀ {name p}, Entries.get? ctx.scope name = some p → p.id ≠ ctx.root.id

/-- The contexts have the same variables, and may be over different records. -/
structure Parallel (c₁ c₂ : Context) : Prop where
  schema : c₁.schema = c₂.schema
  settings : c₁.settings = c₂.settings
  computed : c₁.computed = c₂.computed
  left : c₁.Apart
  right : c₂.Apart
  scope : ∀ name, (Entries.get? c₁.scope name).isSome = (Entries.get? c₂.scope name).isSome
  params : Matching (Shared c₁ c₂) c₁.nextId c₂.nextId

namespace Apart

variable {c : Context}

theorem sameClause {c' : Context} (h : c.Apart) (hc : c.SameClause c') : c'.Apart where
  current_lt := by
    rw [hc.current]
    exact Nat.lt_of_lt_of_le h.current_lt hc.nextId
  root_lt := by
    rw [hc.root]
    exact Nat.lt_of_lt_of_le h.root_lt hc.nextId
  ne_current := by
    rw [hc.current, hc.scope]
    exact h.ne_current
  ne_root := by
    rw [hc.root, hc.scope]
    exact h.ne_root

theorem push (h : c.Apart) (name : String) (type : HostType) : (c.push name type).Apart where
  current_lt := Nat.lt_succ_of_lt h.current_lt
  root_lt := Nat.lt_succ_of_lt h.root_lt
  ne_current {key p} hp := by
    simp only [Context.push, Entries.get?_insert] at hp
    split_ifs at hp
    · cases hp
      exact Nat.ne_of_gt h.current_lt
    · exact h.ne_current hp
  ne_root {key p} hp := by
    simp only [Context.push, Entries.get?_insert] at hp
    split_ifs at hp
    · cases hp
      exact Nat.ne_of_gt h.root_lt
    · exact h.ne_root hp

theorem derive (h : c.Apart) (hlt : ∀ {name p}, Entries.get? c.scope name = some p → p.id < c.nextId)
    (element : HostType) : (c.derive element).Apart where
  current_lt := Nat.lt_succ_self c.nextId
  root_lt := Nat.lt_succ_of_lt h.root_lt
  ne_current hp := Nat.ne_of_lt (hlt hp)
  ne_root hp := h.ne_root hp

end Apart

theorem SameClause.shared {d₁ d₂ c₁ c₂ : Context} (h₁ : d₁.SameClause c₁) (h₂ : d₂.SameClause c₂) :
    Shared c₁ c₂ = Shared d₁ d₂ := by
  funext p₁ p₂
  unfold Shared
  rw [h₁.scope, h₂.scope]

theorem shared_push {c₁ c₂ : Context} {name : String} {type : HostType} {p₁ p₂ : Param}
    (hp : Shared (c₁.push name type) (c₂.push name type) p₁ p₂) :
    Shared c₁ c₂ p₁ p₂ ∨ p₁ = c₁.newParam name type ∧ p₂ = c₂.newParam name type := by
  obtain ⟨key, hp₁, hp₂⟩ := hp
  simp only [push, Entries.get?_insert] at hp₁ hp₂
  split_ifs at hp₁ hp₂
  · exact .inr ⟨(Option.some.inj hp₁).symm, (Option.some.inj hp₂).symm⟩
  · exact .inl ⟨key, hp₁, hp₂⟩

/-- Without variables, contexts need only have the same schema, settings and columns. -/
theorem parallel_of_scope_nil {c₁ c₂ : Context} (hschema : c₁.schema = c₂.schema)
    (hsettings : c₁.settings = c₂.settings) (hcomputed : c₁.computed = c₂.computed)
    (h₁ : c₁.scope = []) (h₂ : c₂.scope = [])
    (hlt₁ : c₁.current.id < c₁.nextId ∧ c₁.root.id < c₁.nextId)
    (hlt₂ : c₂.current.id < c₂.nextId ∧ c₂.root.id < c₂.nextId) : Parallel c₁ c₂ := by
  have hnone {c : Context} (hc : c.scope = []) {name : String} {p : Param} {P : Prop}
      (hp : Entries.get? c.scope name = some p) : P := by
    rw [hc] at hp
    cases hp
  have hshared {p₁ p₂ : Param} {P : Prop} (hp : Shared c₁ c₂ p₁ p₂) : P :=
    hp.elim fun _ hq => hnone h₁ hq.1
  refine ⟨hschema, hsettings, hcomputed, ⟨hlt₁.1, hlt₁.2, hnone h₁, hnone h₁⟩,
    ⟨hlt₂.1, hlt₂.2, hnone h₂, hnone h₂⟩, fun name => by rw [h₁, h₂], ?_⟩
  exact ⟨hshared, hshared, hshared, hshared, fun hp _ _ => hshared hp⟩

namespace Parallel

variable {c₁ c₂ : Context} (h : Parallel c₁ c₂)
include h

theorem exists_right {name : String} {p₁ : Param} (hp : Entries.get? c₁.scope name = some p₁) :
    ∃ p₂, Entries.get? c₂.scope name = some p₂ := by
  have hscope := h.scope name
  rw [hp] at hscope
  exact Option.isSome_iff_exists.mp hscope.symm

theorem exists_left {name : String} {p₂ : Param} (hp : Entries.get? c₂.scope name = some p₂) :
    ∃ p₁, Entries.get? c₁.scope name = some p₁ := by
  have hscope := h.scope name
  rw [hp] at hscope
  exact Option.isSome_iff_exists.mp hscope

theorem sameClause {c₁' c₂' : Context} (h₁ : c₁.SameClause c₁') (h₂ : c₂.SameClause c₂') :
    Parallel c₁' c₂' where
  schema := by rw [h₁.schema, h₂.schema, h.schema]
  settings := by rw [h₁.settings, h₂.settings, h.settings]
  computed := by rw [h₁.computed, h₂.computed, h.computed]
  left := h.left.sameClause h₁
  right := h.right.sameClause h₂
  scope name := by rw [h₁.scope, h₂.scope, h.scope]
  params := by
    rw [h₁.shared h₂]
    exact { h.params with
      left_lt := fun hp => Nat.lt_of_lt_of_le (h.params.left_lt hp) h₁.nextId
      right_lt := fun hp => Nat.lt_of_lt_of_le (h.params.right_lt hp) h₂.nextId }

theorem push (name : String) (type : HostType) : Parallel (c₁.push name type) (c₂.push name type) :=
  { h with
    left := h.left.push name type
    right := h.right.push name type
    scope := fun key => by
      simp only [Context.push, Entries.get?_insert]
      split_ifs
      · rfl
      · exact h.scope key
    params := h.params.extend name type shared_push }

theorem derive (element : HostType) : Parallel (c₁.derive element) (c₂.derive element) :=
  { h with
    left := h.left.derive (fun hp => (h.exists_right hp).elim fun _ hq => h.params.left_lt ⟨_, hp, hq⟩)
      element
    right := h.right.derive (fun hp => (h.exists_left hp).elim fun _ hq => h.params.right_lt ⟨_, hq, hp⟩)
      element
    params := { h.params with
      left_lt := fun hp => Nat.lt_succ_of_lt (h.params.left_lt hp)
      right_lt := fun hp => Nat.lt_succ_of_lt (h.params.right_lt hp) } }

end Parallel

/-! ## Nested clauses -/

/-- The contexts of nested clauses over records of one type, with the same variables. The root records
may be different. -/
structure Child (k₁ k₂ : Context) : Prop extends Parallel k₁ k₂ where
  left_flattened : k₁.flattened = []
  right_flattened : k₂.flattened = []
  left_source : k₁.flatteningSource = none
  right_source : k₂.flatteningSource = none
  type : k₁.current.type = k₂.current.type
  name : k₁.current.name = k₂.current.name
  left_root : k₁.current.id ≠ k₁.root.id
  right_root : k₂.current.id ≠ k₂.root.id

theorem Parallel.child {c₁ c₂ : Context} (h : Parallel c₁ c₂) (element : HostType) :
    Child (c₁.derive element) (c₂.derive element) where
  toParallel := h.derive element
  left_flattened := rfl
  right_flattened := rfl
  left_source := rfl
  right_source := rfl
  type := rfl
  name := rfl
  left_root := Nat.ne_of_gt h.left.root_lt
  right_root := Nat.ne_of_gt h.right.root_lt

/-- The same place inside two contexts: as counters grow, in quantifiers and in nested clauses. -/
inductive Enclosed (d₁ d₂ : Context) : Context → Context → Prop
  | here : Enclosed d₁ d₂ d₁ d₂
  | later {c₁ c₂ c₁' c₂' : Context} (h : Enclosed d₁ d₂ c₁ c₂) (h₁ : c₁.SameClause c₁')
    (h₂ : c₂.SameClause c₂') (hdepth : c₁'.depth = c₂'.depth) : Enclosed d₁ d₂ c₁' c₂'
  | quantifier {c₁ c₂ : Context} (h : Enclosed d₁ d₂ c₁ c₂) (name : String) (type : HostType) :
    Enclosed d₁ d₂ (c₁.push name type) (c₂.push name type)
  | clause {c₁ c₂ : Context} (h : Enclosed d₁ d₂ c₁ c₂) (element : HostType) :
    Enclosed d₁ d₂ (c₁.derive element) (c₂.derive element)

namespace Enclosed

variable {d₁ d₂ c₁ c₂ : Context}

theorem root (h : Enclosed d₁ d₂ c₁ c₂) : c₁.root = d₁.root ∧ c₂.root = d₂.root := by
  induction h with
  | here => exact ⟨rfl, rfl⟩
  | later _ h₁ h₂ _ ih => exact ⟨h₁.root.trans ih.1, h₂.root.trans ih.2⟩
  | quantifier _ _ _ ih => exact ih
  | clause _ _ ih => exact ih

theorem depth (h : Enclosed d₁ d₂ c₁ c₂) (hd : d₁.depth = d₂.depth) : c₁.depth = c₂.depth := by
  induction h with
  | here => exact hd
  | later _ _ _ hdepth _ => exact hdepth
  | quantifier _ _ _ ih => exact ih
  | clause _ _ ih => exact ih

/-- **Everywhere inside two contexts, there are the same variables.** -/
theorem parallel (h : Enclosed d₁ d₂ c₁ c₂) (hd : Parallel d₁ d₂) : Parallel c₁ c₂ := by
  induction h with
  | here => exact hd
  | later _ h₁ h₂ _ ih => exact ih.sameClause h₁ h₂
  | quantifier _ name type ih => exact ih.push name type
  | clause _ element ih => exact ih.derive element

/-- What is not over flattened records is inside a nested clause. -/
theorem child (h : Enclosed d₁ d₂ c₁ c₂) (hd : Parallel d₁ d₂) (hflat : d₂.isFlattened = true)
    (hc : c₂.isFlattened = false) : Child c₁ c₂ := by
  induction h with
  | here =>
    rw [hflat] at hc
    cases hc
  | later _ h₁ h₂ _ ih =>
    have ih := ih (by
      unfold isFlattened at hc ⊢
      rwa [h₂.flatteningSource] at hc)
    exact {
      toParallel := ih.toParallel.sameClause h₁ h₂
      left_flattened := h₁.flattened.trans ih.left_flattened
      right_flattened := h₂.flattened.trans ih.right_flattened
      left_source := h₁.flatteningSource.trans ih.left_source
      right_source := h₂.flatteningSource.trans ih.right_source
      type := by rw [h₁.current, h₂.current, ih.type]
      name := by rw [h₁.current, h₂.current, ih.name]
      left_root := by
        rw [h₁.current, h₁.root]
        exact ih.left_root
      right_root := by
        rw [h₂.current, h₂.root]
        exact ih.right_root }
  | quantifier _ name type ih => exact { ih hc with toParallel := (ih hc).toParallel.push name type }
  | clause h element _ => exact (h.parallel hd).child element

end Enclosed

end Context

/-! ## Computations that ignore the root record -/

/-- In the clause of a context, the computation gives the same whatever the root record is. -/
def BindM.IgnoresRoot {α : Type} (k : Context) (x : BindM α) : Prop :=
  ∀ c root, k.SameClause c → (x (c.withRoot root)).1 = (x c).1

/-- In the clause of a context, the node is bound to the same whatever the root record is. -/
def Node.IgnoresRoot (k : Context) (node : Node) : Prop :=
  ∀ levels, BindM.IgnoresRoot k (node.bindWithin levels)

theorem Node.Rootless.ignoresRoot {s : Schema} {t : HostType} {k : Context} {node : Node}
    (h : node.Rootless s t) (hk : k.Over s t) : node.IgnoresRoot k := by
  intro levels c root hc
  rw [h.bindWithin levels c root (hk.sameClause hc)]

/-- The environment in which a parameter has another value, or none. -/
def Env.assign (env : Env) (id : Nat) : Option Value → Env
  | some v => (id, v) :: env
  | none => env.filter fun entry => entry.1 != id

theorem Env.lookup_assign (env : Env) (id : Nat) (v : Option Value) (key : Nat) :
    (env.assign id v).lookup key = if key = id then v else env.lookup key := by
  cases v with
  | some v => exact Context.lookup_cons id v env key
  | none =>
    unfold Env.assign
    induction env with
    | nil => simp
    | cons entry rest ih =>
      obtain ⟨n, w⟩ := entry
      rw [List.filter_cons, Context.lookup_cons]
      by_cases hn : n = id
      · rw [if_neg (by simpa using hn), ih, hn]
        split_ifs <;> rfl
      · rw [if_pos (by simpa using hn), Context.lookup_cons, ih]
        split_ifs with hkey hid
        · exact absurd (hkey.symm.trans hid) hn
        · rfl
        · rfl
        · rfl

namespace Context

/-- The current record and the variables have the same values; the root record may have another. -/
def EnvShared (k₁ k₂ : Context) (env₁ env₂ : Env) : Prop :=
  env₁.lookup k₁.current.id = env₂.lookup k₂.current.id ∧
    ∀ p₁ p₂, Shared k₁ k₂ p₁ p₂ → env₁.lookup p₁.id = env₂.lookup p₂.id

theorem SameClause.withRoot {d c : Context} (h : d.SameClause c) (root : Param) :
    (d.withRoot root).SameClause (c.withRoot root) :=
  { h with root := rfl }

theorem eq_of_shared {k : Context} {p q : Param} (hp : Shared k k p q) : p = q := by
  obtain ⟨name, hp, hq⟩ := hp
  rw [hp] at hq
  exact Option.some.inj hq

namespace Child

variable {k₁ k₂ : Context} (h : Child k₁ k₂)
include h

omit h in
/-- The first context with a root record like that of the second. -/
def rerooted (k₁ k₂ : Context) : Context := k₁.withRoot ⟨k₁.root.id, k₂.root.name, k₂.root.type⟩

omit h in
/-- The context with its own record as the root record. -/
def selfRooted (k : Context) : Context := k.withRoot k.current

theorem alike : Alike (rerooted k₁ k₂) k₂ where
  schema := h.schema
  settings := h.settings
  computed := h.computed
  left_flattened := h.left_flattened
  right_flattened := h.right_flattened
  left_source := h.left_source
  right_source := h.right_source
  scope := h.scope
  params := by
    have hcurrent : Matching (fun p₁ p₂ => Shared k₁ k₂ p₁ p₂ ∨ p₁ = k₁.current ∧ p₂ = k₂.current)
        k₁.nextId k₂.nextId :=
      h.params.insert _ _ h.type h.name h.left.current_lt h.right.current_lt
        (fun ⟨_, hp₁, hp₂⟩ => ⟨h.left.ne_current hp₁, h.right.ne_current hp₂⟩) id
    refine hcurrent.insert (rerooted k₁ k₂).root k₂.root rfl rfl h.left.root_lt
      h.right.root_lt (fun hp => ?_) fun hp => ?_
    · rcases hp with ⟨_, hp₁, hp₂⟩ | ⟨rfl, rfl⟩
      · exact ⟨h.left.ne_root hp₁, h.right.ne_root hp₂⟩
      · exact ⟨h.left_root, h.right_root⟩
    · cases hp with
      | current => exact .inl (.inr ⟨rfl, rfl⟩)
      | root => exact .inr ⟨rfl, rfl⟩
      | scope hp₁ hp₂ => exact .inl (.inl ⟨_, hp₁, hp₂⟩)

theorem self : Alike (selfRooted k₁) (selfRooted k₁) where
  schema := rfl
  settings := rfl
  computed := rfl
  left_flattened := h.left_flattened
  right_flattened := h.left_flattened
  left_source := h.left_source
  right_source := h.left_source
  scope _ := rfl
  params := by
    have hshared : Matching (Shared k₁ k₁) k₁.nextId k₁.nextId := by
      have hlt {p q : Param} (hp : Shared k₁ k₁ p q) : p.id < k₁.nextId := by
        obtain ⟨name, hp, -⟩ := hp
        obtain ⟨p₂, hp₂⟩ := h.exists_right hp
        exact h.params.left_lt ⟨name, hp, hp₂⟩
      refine ⟨fun hp => by rw [eq_of_shared hp], fun hp => by rw [eq_of_shared hp], hlt,
        fun hp => by rw [← eq_of_shared hp]; exact hlt hp, fun {p₁ p₂ q₁ q₂} hp hq heq => ?_⟩
      obtain rfl := eq_of_shared hp
      obtain rfl := eq_of_shared hq
      obtain ⟨name, hp, -⟩ := hp
      obtain ⟨name', hq, -⟩ := hq
      obtain ⟨p₂, hp₂⟩ := h.exists_right hp
      obtain ⟨q₂, hq₂⟩ := h.exists_right hq
      have hpq := (h.params.unique ⟨name, hp, hp₂⟩ ⟨name', hq, hq₂⟩ (.inl (or_self_iff.mp heq))).1
      exact ⟨hpq, hpq⟩
    refine hshared.insert k₁.current k₁.current rfl rfl h.left.current_lt
      h.left.current_lt (fun ⟨_, hp₁, hp₂⟩ => ⟨h.left.ne_current hp₁, h.left.ne_current hp₂⟩)
      fun hp => ?_
    cases hp with
    | current => exact .inr ⟨rfl, rfl⟩
    | root => exact .inr ⟨rfl, rfl⟩
    | scope hp₁ hp₂ => exact .inl ⟨_, hp₁, hp₂⟩

/-- A computation that ignores the root record gives in the second clause what it gives in the first
with any other root record. -/
theorem simulates {α : Type} {x : BindM α} {R : Context → Context → α → α → Prop}
    (hx : ∀ {a₁ a₂}, Alike a₁ a₂ → Simulates (a₁.Within a₂) (fun _ => True) (R a₁ a₂) x x)
    (hkeeps : Keeps x) (hroot : x.IgnoresRoot k₁) :
    Simulates (k₁.Within k₂) (fun _ => True)
      (fun a b => R (rerooted k₁ k₂) k₂ a b ∧ R (selfRooted k₁) (selfRooted k₁) a a) x x where
  ok {c₁ c₂ a c₁'} hc ha := by
    have hwith (root : Param) : (x (c₁.withRoot root)).1 = .ok a := by rw [hroot c₁ root hc.left, ha]
    obtain ⟨b, c₂', hb, hab, -, hframe⟩ := (hx h.alike).ok
      (⟨hc.left.withRoot _, hc.right, hc.depth⟩ : (rerooted k₁ k₂).Within k₂ _ c₂)
      (Prod.ext (hwith _) rfl)
    -- the computation in the first clause, next to itself
    obtain ⟨a', _, ha', haa, -⟩ := (hx h.self).ok
      (⟨hc.left.withRoot _, hc.left.withRoot _, rfl⟩ : (selfRooted k₁).Within (selfRooted k₁) _ _)
      (Prod.ext (hwith _) rfl)
    have hsame := hwith k₁.current
    rw [ha'] at hsame
    cases hsame
    have hframe₁ := hkeeps c₁
    rw [ha] at hframe₁
    exact ⟨b, c₂', hb, ⟨hab, haa⟩, hframe₁, hframe⟩
  error {c₁ c₂ e c₁'} hc he _ := by
    have hwith (root : Param) : (x (c₁.withRoot root)).1 = .error e := by
      rw [hroot c₁ root hc.left, he]
    exact (hx h.alike).error
      (⟨hc.left.withRoot _, hc.right, hc.depth⟩ : (rerooted k₁ k₂).Within k₂ _ c₂)
      (Prod.ext (hwith _) rfl) trivial

/-- The value of an expression that is bound with any root record does not depend on that of the root
record. -/
theorem eval_eq [External] {e₁ e₂ : Expr}
    (hother : ∀ {env₁ env₂}, EnvAlike (rerooted k₁ k₂) k₂ env₁ env₂ → e₁.eval env₁ = e₂.eval env₂)
    (hself : ∀ {env₁ env₂}, EnvAlike (selfRooted k₁) (selfRooted k₁) env₁ env₂ →
      e₁.eval env₁ = e₁.eval env₂) {env₁ env₂ : Env} (hV : EnvShared k₁ k₂ env₁ env₂) :
    e₁.eval env₁ = e₂.eval env₂ := by
  have hassign (p : Param) (hp : p.id ≠ k₁.root.id) :
      (env₁.assign k₁.root.id (env₂.lookup k₂.root.id)).lookup p.id = env₁.lookup p.id := by
    rw [Env.lookup_assign, if_neg hp]
  calc e₁.eval env₁
      = e₁.eval (env₁.assign k₁.root.id (env₂.lookup k₂.root.id)) := by
        refine hself fun p₁ p₂ hp => ?_
        cases hp with
        | current => exact (hassign k₁.current h.left_root).symm
        | root => exact (hassign k₁.current h.left_root).symm
        | scope hp₁ hp₂ =>
          obtain rfl := eq_of_shared ⟨_, hp₁, hp₂⟩
          exact (hassign p₁ (h.left.ne_root hp₁)).symm
    _ = e₂.eval env₂ := by
        refine hother fun p₁ p₂ hp => ?_
        cases hp with
        | current => exact (hassign k₁.current h.left_root).trans hV.1
        | root => exact (Env.lookup_assign _ _ _ _).trans (if_pos rfl)
        | scope hp₁ hp₂ => exact (hassign p₁ (h.left.ne_root hp₁)).trans (hV.2 _ _ ⟨_, hp₁, hp₂⟩)

/-- **In nested clauses, nodes that ignore the root record agree.** -/
theorem agree [External] {node : Node} (hnode : node.IgnoresRoot k₁) (levels : Nat) :
    Simulates (k₁.Within k₂) (fun _ => True) (Expr.Agree k₁ k₂ (EnvShared k₁ k₂))
      (node.bindWithin levels) (node.bindWithin levels) := by
  refine (h.simulates (fun ha => ha.simulates node levels) (Node.bindWithin_keeps levels node)
    (hnode levels)).mono fun e₁ e₂ he => ?_
  exact { he.1 with eval := fun hV => h.eval_eq he.1.eval he.2.eval hV }

/-- The predicates of nested clauses agree, if they ignore the root record. -/
theorem filter [External] {body : Node} {levels : Nat}
    (hbody : (Bind.filterLambda (Node.bindWithin levels) body).IgnoresRoot k₁) :
    Simulates (k₁.Within k₂) (fun _ => True)
      (fun l₁ l₂ => l₁.param = k₁.current ∧ l₂.param = k₂.current ∧
        Expr.Agree k₁ k₂ (EnvShared k₁ k₂) l₁.body l₂.body)
      (Bind.filterLambda (Node.bindWithin levels) body)
      (Bind.filterLambda (Node.bindWithin levels) body) := by
  have hsim {a₁ a₂ : Context} (ha : Alike a₁ a₂) : Simulates (a₁.Within a₂) (fun _ => True)
      (fun l₁ l₂ => l₁.param = a₁.current ∧ l₂.param = a₂.current ∧
        Expr.Agree a₁ a₂ (EnvAlike a₁ a₂) l₁.body l₂.body)
      (Bind.filterLambda (Node.bindWithin levels) body)
      (Bind.filterLambda (Node.bindWithin levels) body) := by
    refine (ha.corresponds.simulation.filterLambda (fun he => he.type)
      (ha.simulates body levels)).mono fun l₁ l₂ hl => ?_
    obtain ⟨⟨c₁, c₂, hc, hp₁, hp₂⟩, he⟩ := hl
    exact ⟨hp₁.trans hc.left.current, hp₂.trans hc.right.current, he⟩
  have hkeeps := Bind.filterLambda_keeps (Node.bindWithin_keeps levels) body
  refine (h.simulates hsim hkeeps hbody).mono fun l₁ l₂ hl => ?_
  obtain ⟨⟨hp₁, hp₂, hother⟩, -, -, hself⟩ := hl
  exact ⟨hp₁, hp₂, { hother with eval := fun hV => h.eval_eq hother.eval hself.eval hV }⟩

end Child

/-! ## Flattened contexts -/

/-- Inside nested clauses, the name of the root record stands for the root record, unless the clause
is over records of its type. -/
theorem Enclosed.resolve_root {d₁ d₂ k₁ k₂ : Context} (h : Enclosed d₁ d₂ k₁ k₂) (hk : Child k₁ k₂)
    {v : RangeVariable} (hv : v.name = RangeVariable.itName)
    (htype : k₁.schema.hostType? v.type ≠ some k₁.current.type) :
    k₁.resolve v = .ok (.param d₁.root) ∧ k₂.resolve v = .ok (.param d₂.root) := by
  have resolves {k : Context} (hsource : k.flatteningSource = none) (hroot : k.current.id ≠ k.root.id)
      (htype : k.schema.hostType? v.type ≠ some k.current.type) :
      k.resolve v = .ok (.param k.root) := by
    have hcond : ¬ (k.isFlattened = true ∨ k.root = k.current ∨
        k.schema.hostType? v.type = some k.current.type) := by
      rintro (hflat | heq | heq)
      · rw [isFlattened, hsource] at hflat
        cases hflat
      · exact hroot (by rw [heq])
      · exact htype heq
    have hthis : v.name ≠ RangeVariable.thisName := by
      rw [hv]
      decide
    rw [Context.resolve, if_neg hthis, if_pos hv, if_neg hcond]
  have htype₂ : k₂.schema.hostType? v.type ≠ some k₂.current.type := by
    rwa [← hk.schema, ← hk.type]
  rw [← h.root.1, ← h.root.2]
  exact ⟨resolves hk.left_source hk.left_root htype, resolves hk.right_source hk.right_root htype₂⟩

end Context

namespace Transformation

variable {t : Transformation} {source : Expr} {f : Flattening} {ctx d : Context}

theorem flattensIn_of_flatten (h : t.flatten source ctx = (.ok (some f), d)) :
    t.flattensIn ctx = true := by
  obtain ⟨-, hnone, -⟩ | ⟨hflat, -⟩ := flatten_cases h
  · cases hnone
  · exact hflat

/-- The context of a top-level clause over flattened records, next to the one over the records
themselves. -/
theorem flatten_parallel (hroot : ctx.root = ctx.current) (hscope : ctx.scope = [])
    (hid : ctx.current.id < ctx.nextId) (h : t.flatten source ctx = (.ok (some f), d)) :
    ctx.Parallel d ∧ ctx.depth = d.depth ∧ d.isFlattened = true ∧ d.root = d.current ∧
      d.current.type = .wrapper .flattening := by
  have hstep := flatten_step h
  unfold Step at hstep
  rw [if_pos (flattensIn_of_flatten h)] at hstep
  obtain ⟨p, reads, -, hlt, htype, hframe⟩ := hstep
  have hcurrent : d.current = p := hframe.current
  have hdroot : d.root = p := by
    rw [hframe.root, Context.enterFlattening]
    exact if_pos hroot
  refine ⟨Context.parallel_of_scope_nil hframe.schema.symm hframe.settings.symm hframe.computed.symm
    hscope (hframe.scope.trans hscope) ⟨hid, by rwa [hroot]⟩ ⟨by rwa [hcurrent], by rwa [hdroot]⟩,
    hframe.depth.symm, ?_, hdroot.trans hcurrent.symm, by rw [hcurrent, htype]⟩
  rw [Context.isFlattened, hframe.flatteningSource]
  rfl

end Transformation

/-- **Nested clauses keep their meaning, except for the root record.** Let the records of a top-level
clause be flattened, and look at the same nested clause in both contexts, however deep it stands. The
name of the root record stands for the record of the top-level clause in the one, but for the
flattened record in the other. A node that ignores the root record is bound in both to expressions of
one type that have the same values, or fails in both with the same error. -/
theorem nested_clauses_keep_all_but_the_root [External] {ctx d k₁ k₂ : Context} {t : Transformation}
    {source : Expr} {f : Flattening} (hroot : ctx.root = ctx.current) (hscope : ctx.scope = [])
    (hid : ctx.current.id < ctx.nextId) (hflatten : t.flatten source ctx = (.ok (some f), d))
    (hk : ctx.Enclosed d k₁ k₂) (hnested : k₂.isFlattened = false) :
    (∀ v : RangeVariable, v.name = RangeVariable.itName →
      k₁.schema.hostType? v.type ≠ some k₁.current.type →
        k₁.resolve v = .ok (.param ctx.current) ∧ k₂.resolve v = .ok (.param d.current) ∧
          d.current.type = .wrapper .flattening) ∧
      ∀ node : Node, node.IgnoresRoot k₁ →
        (∀ e₁, (node.bind k₁).1 = .ok e₁ → ∃ e₂, (node.bind k₂).1 = .ok e₂ ∧ e₂.type = e₁.type ∧
          ∀ env₁ env₂, k₁.EnvShared k₂ env₁ env₂ → e₂.eval env₂ = e₁.eval env₁) ∧
        ∀ error, (node.bind k₁).1 = .error error → (node.bind k₂).1 = .error error := by
  obtain ⟨hparallel, hdepth, hflat, hdroot, htype⟩ :=
    Transformation.flatten_parallel hroot hscope hid hflatten
  have hchild := hk.child hparallel hflat hnested
  have hwithin : k₁.Within k₂ k₁ k₂ := .refl (hk.depth hdepth)
  have hlevels : k₂.levelsLeft = k₁.levelsLeft := by
    rw [Context.levelsLeft, Context.levelsLeft, hchild.settings, hwithin.depth]
  refine ⟨fun v hv hother => ?_, fun node hnode => ⟨fun e₁ he₁ => ?_, fun error herror => ?_⟩⟩
  · obtain ⟨h₁, h₂⟩ := hk.resolve_root hchild hv hother
    exact ⟨hroot ▸ h₁, hdroot ▸ h₂, htype⟩
  · obtain ⟨e₂, c₂, he₂, hagree, -⟩ :=
      (hchild.agree hnode k₁.levelsLeft).ok hwithin (Prod.ext he₁ rfl)
    refine ⟨e₂, ?_, hagree.type.symm, fun _ _ hV => (hagree.eval hV).symm⟩
    rw [Node.bind, hlevels, he₂]
  · obtain ⟨c₂, hc₂⟩ :=
      (hchild.agree hnode k₁.levelsLeft).error hwithin (Prod.ext herror rfl) trivial
    rw [Node.bind, hlevels, hc₂]

/-! ### Sales with lines -/

/-- Sales of a product, with lines of products and quantities, and a limit. -/
def lineSchema : Schema :=
  ⟨[("Sale", ⟨"Sale", [("Product", .record "Product"), ("Lines", .collection (.record "Line")),
      ("Limit", .int .int32)], none⟩),
    ("Product", ⟨"Product", [("Price", .int .int32)], none⟩),
    ("Line", ⟨"Line", [("Product", .record "Product"), ("Qty", .int .int32)], none⟩)], [], []⟩

/-- The clause over sales with lines. -/
def lineContext : Context := .initial lineSchema {} (.record "Sale")

/-- A sale with one line. -/
def lineSales : Expr :=
  .mkConst (.collection [.record "Sale"
    [("Product", .record "Product" [("Price", .int32 1)]),
      ("Lines", .collection [.record "Line"
        [("Product", .record "Product" [("Price", .int32 9)]), ("Qty", .int32 3)]]),
      ("Limit", .int32 2)]])

/-- The price of the product, summed up for each value of a node. -/
def totalsBy (key : Node) : Transformation :=
  .groupBy [.mk "By" (some key) []]
    [.property ⟨.sum, some (.property (.property saleNode "Product" .navigation) "Price" .single), "Total"⟩]

/-- The record of a clause over lines. -/
def lineVariable : RangeVariable := ⟨RangeVariable.itName, .entity "Line" true⟩

/-- The quantity of the line is above a bound. -/
def quantityAbove (bound : Node) : Node :=
  .binary .gt (.property (.rangeVariable lineVariable) "Qty" .single) bound

/-- The number of lines whose quantity is above a bound. -/
def linesAbove (bound : Node) : Node :=
  .countWhere (.property saleNode "Lines" .navigationCollection) (quantityAbove bound) lineVariable

theorem quantity_rootless :
    (Node.property (.rangeVariable lineVariable) "Qty" .single).Rootless lineSchema (.record "Line") := by
  have hline : lineSchema.hostType? lineVariable.type = some (.record "Line") := by decide +kernel
  refine .mk (by simp [Node.references]) ?_ (fun _ _ _ h => by cases h)
  simp only [Node.parts, List.forall_mem_singleton]
  exact .mk (by simpa [Node.references] using fun _ => hline) (by simp [Node.parts]) fun _ _ _ h => by cases h

theorem quantityAbove_rootless (bound : Int32) :
    (quantityAbove (.constant (.int32 bound) none)).Rootless lineSchema (.record "Line") := by
  refine .mk (by simp [quantityAbove, Node.references]) ?_ (fun _ _ _ h => by cases h)
  simp only [quantityAbove, Node.parts, List.forall_mem_cons]
  refine ⟨quantity_rootless, ?_, List.forall_mem_nil _⟩
  exact .mk (by simp [Node.references]) (by simp [Node.parts]) fun _ _ _ h => by cases h

/-- The clause over the lines of a sale, over sales and over flattened sales. -/
theorem nested_clauses_keep_quantities :
    ∃ f d e₁ e₂, (totalsBy saleNode).flatten lineSales lineContext = (.ok (some f), d) ∧
      ((quantityAbove (.constant (.int32 1) none)).bind (lineContext.derive (.record "Line"))).1 =
        .ok e₁ ∧
      ((quantityAbove (.constant (.int32 1) none)).bind (d.derive (.record "Line"))).1 = .ok e₂ ∧
      ∀ line, e₂.eval [((d.derive (.record "Line")).current.id, line)] =
        e₁.eval [((lineContext.derive (.record "Line")).current.id, line)] := by
  have hflatten : ∃ f, (totalsBy saleNode).flatten lineSales lineContext =
      (.ok (some f), ((totalsBy saleNode).flatten lineSales lineContext).2) := ⟨_, rfl⟩
  obtain ⟨f, hf⟩ := hflatten
  obtain ⟨e₁, he₁⟩ : ∃ e₁, ((quantityAbove (.constant (.int32 1) none)).bind
      (lineContext.derive (.record "Line"))).1 = .ok e₁ := ⟨_, rfl⟩
  generalize hd : ((totalsBy saleNode).flatten lineSales lineContext).2 = d at hf
  have hk : lineContext.Enclosed d (lineContext.derive (.record "Line")) (d.derive (.record "Line")) :=
    .clause .here _
  obtain ⟨e₂, he₂, -, heval⟩ := ((nested_clauses_keep_all_but_the_root rfl rfl Nat.zero_lt_one hf hk
    rfl).2 _ ((quantityAbove_rootless 1).ignoresRoot ⟨rfl, rfl, rfl, rfl, rfl⟩)).1 e₁ he₁
  refine ⟨f, _, e₁, e₂, hf, he₁, he₂, fun line => heval _ _ ⟨?_, fun p₁ p₂ hp => ?_⟩⟩
  · rw [Context.lookup_cons, Context.lookup_cons, if_pos rfl, if_pos rfl]
  · obtain ⟨name, hp, -⟩ := hp
    cases hp

/-- The message of a failure. -/
def failure? {α : Type} : Outcome α → Option String
  | .ok _ => none
  | .error e => some e.message

/-- The number of lines above the limit of the sale. -/
def linesAboveLimit : Node := linesAbove (.property saleNode "Limit" .single)

/-- **The root record is lost in nested clauses.** The number of lines above the limit of the sale can
be grouped by over the sales themselves, but the limit is looked for in the flattened record. -/
theorem flattening_loses_the_root :
    lineContext.Fresh ∧
      (∃ bound, ((totalsBy linesAboveLimit).bindAggregation lineContext).1 = .ok bound ∧
        ((bound.overSource lineSales).eval []).toOption.isSome = true) ∧
      failure? ((totalsBy linesAboveLimit).applyTo lineSales lineContext).1 =
        some "Property 'Limit' not found on type 'FlatteningWrapper'" := by
  have hok : (((totalsBy linesAboveLimit).bindAggregation lineContext).1.toOption.bind fun bound =>
      ((bound.overSource lineSales).eval []).toOption.map fun _ => ()).isSome = true := by decide +kernel
  obtain ⟨_, hbind⟩ := Option.isSome_iff_exists.mp hok
  obtain ⟨bound, hbound, hrows⟩ := Option.bind_eq_some_iff.mp hbind
  obtain ⟨rows, hrows, -⟩ := Option.map_eq_some_iff.mp hrows
  exact ⟨⟨rfl, rfl, rfl, rfl, rfl⟩, ⟨bound, Outcome.toOption_eq_some.mp hbound, by rw [hrows]; rfl⟩,
    by decide +kernel⟩

end TypedQuery
