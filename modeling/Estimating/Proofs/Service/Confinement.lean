/-
Calls that keep to one tenant.

Two stores are alike for a tenant if they hold the same for it.  A call keeps to a tenant if on such
stores it gives the same answers and leaves them alike, and if no other tenant notices it.  Ids and
times are seen behind a mask, so the two calls compared may differ in them.

* `Owned.map_list_eq` — a tenant's part of a table is told by its lookups;
* `Alike` — stores that hold the same for a tenant;
* `World.Leaves` — a change that no other tenant notices;
* `World.Confined` — **calls that keep to a tenant**, with their closure under sequence and
  iteration.
-/
import Estimating.Proofs.Service.Masks

set_option autoImplicit false

namespace Estimating

/-! ### A tenant's part of a table -/

namespace Owned

variable {κ α β : Type} [Ord κ] [Std.TransOrd κ] [Std.LawfulEqOrd κ]

/-- What a table holds for a tenant is told by its lookups. -/
theorem map_list_eq {t t' : Table (Owned κ) α} {tenant : TenantId} {f : α → β}
    (h : ∀ key, (t[(⟨tenant, key⟩ : Owned κ)]?).map f = (t'[(⟨tenant, key⟩ : Owned κ)]?).map f) :
    (list t tenant).map f = (list t' tenant).map f := by
  have hpart (t : Table (Owned κ) α) : (list t tenant).map f =
      (t.filterMap fun k a => if k.tenant == tenant then some (f a) else none).toList.map
        Prod.snd := by
    rw [Std.ExtTreeMap.toList_filterMap, list]
    induction t.toList with
    | nil => rfl
    | cons e es ih =>
        rw [List.filter_cons, List.filterMap_cons]
        by_cases he : e.1.tenant == tenant
        · simp only [he, if_true, List.map_cons, Option.map_some, ih]
        · simp only [he, Bool.false_eq_true, if_false, Option.map_none, ih]
  have heq : (t.filterMap fun k a => if k.tenant == tenant then some (f a) else none) =
      t'.filterMap fun k a => if k.tenant == tenant then some (f a) else none := by
    refine Table.ext_get fun k => ?_
    rw [Std.ExtTreeMap.getElem?_filterMap', Std.ExtTreeMap.getElem?_filterMap']
    by_cases hk : k.tenant == tenant
    · simp only [hk, if_true]
      obtain ⟨owner, key⟩ := k
      obtain rfl : owner = tenant := eq_of_beq hk
      simpa only [Option.map_eq_bind, Function.comp_def] using h key
    · simp only [hk, Bool.false_eq_true, if_false]
      cases t[k]? <;> cases t'[k]? <;> rfl
  rw [hpart, hpart, heq]

omit [Std.LawfulEqOrd κ] in
/-- Whether there is something at all is told by a lookup. -/
theorem contains_eq {t t' : Table (Owned κ) α} {k : Owned κ} {f : α → β}
    (h : (t[k]?).map f = (t'[k]?).map f) : t.contains k = t'.contains k := by
  rw [Std.ExtTreeMap.contains_eq_isSome_getElem?, Std.ExtTreeMap.contains_eq_isSome_getElem?,
    ← Option.isSome_map, h, Option.isSome_map]

end Owned

/-! ### Stores that are alike for a tenant -/

/-- Stores that hold the same for a tenant, behind a mask. -/
structure Alike (m : Mask) (tenant : TenantId) (s s' : Stores) : Prop where
  rules : ∀ key, (s.rules.get tenant key).map m.rule = (s'.rules.get tenant key).map m.rule
  shelves : ∀ profile, s.catalog.shelf tenant profile = s'.catalog.shelf tenant profile
  quotes : ∀ quote, s.quotes.get tenant quote = s'.quotes.get tenant quote
  /-- Both logs are in memory. -/
  log : ∃ es es', s.log = .memory es ∧ s'.log = .memory es' ∧
    (es.filter (·.tenant == tenant)).map m.entry = (es'.filter (·.tenant == tenant)).map m.entry
  patterns : ∀ key, (s.patterns.get tenant key).map m.pattern =
    (s'.patterns.get tenant key).map m.pattern
  placed : s.patterns.Placed
  placed' : s'.patterns.Placed

namespace Alike

variable {m : Mask} {tenant : TenantId} {s s' : Stores}

/-- Stores are alike to themselves, as seen by any tenant. -/
theorem refl_left (h : Alike m tenant s s') (m' : Mask) (other : TenantId) :
    Alike m' other s s where
  rules _ := rfl
  shelves _ := rfl
  quotes _ := rfl
  log := by
    obtain ⟨es, _, hes, _⟩ := h.log
    exact ⟨es, es, hes, hes, rfl⟩
  patterns _ := rfl
  placed := h.placed
  placed' := h.placed

theorem map_rules (h : Alike m tenant s s') :
    (s.rules.list tenant).map m.rule = (s'.rules.list tenant).map m.rule :=
  Owned.map_list_eq h.rules

theorem map_patterns (h : Alike m tenant s s') :
    (s.patterns.list tenant).map m.pattern = (s'.patterns.list tenant).map m.pattern :=
  Owned.map_list_eq h.patterns

/-- The version under a key is the same. -/
theorem versionAt_eq (h : Alike m tenant s s') (key : PatternKey) :
    s.patterns.versionAt tenant key = s'.patterns.versionAt tenant key := by
  have hversion (store : PatternStore) : store.versionAt tenant key =
      (((store.get tenant key).map m.pattern).map Pattern.version).getD 0 := by
    unfold PatternStore.versionAt
    cases store.get tenant key <;> rfl
  rw [hversion, hversion, h.patterns]

end Alike

namespace World

/-! ### Calls that keep to one tenant -/

section Confined

variable {m : Mask} {tenant : TenantId} {s s' t t' : Stores}

/-- What any other tenant might compare with the stores is the same after a change. -/
def Leaves (tenant : TenantId) (s t : Stores) : Prop :=
  ∀ (m : Mask) (other : TenantId) (u : Stores), other ≠ tenant → Alike m other s u →
    Alike m other t u

theorem leaves_refl (tenant : TenantId) (s : Stores) : Leaves tenant s s := fun _ _ _ _ h => h

theorem Leaves.trans {u : Stores} (h : Leaves tenant s t) (h' : Leaves tenant t u) :
    Leaves tenant s u :=
  fun m other v hne halike => h' m other v hne (h m other v hne halike)

variable {ε α β : Type} {R : α → α → Prop} {Q : β → β → Prop}

/-- Two results: values that are related, or the same error. -/
inductive Matches (R : α → α → Prop) : Except ε α → Except ε α → Prop
  | ok {x x' : α} (h : R x x') : Matches R (.ok x) (.ok x')
  | error (e : ε) : Matches R (.error e) (.error e)

theorem Matches.eq {x x' : Except ε α} (h : Matches Eq x x') : x = x' := by
  cases h with
  | ok h => rw [h]
  | error e => rfl

theorem Matches.mapError {δ : Type} {x x' : Except ε α} (h : Matches R x x') (g : ε → δ) :
    Matches R (x.mapError g) (x'.mapError g) := by
  cases h with
  | ok h => exact .ok h
  | error e => exact .error (g e)

/-- Two calls keep to a tenant: on stores that are alike for it they give related answers, the
stores stay alike for it, and no other tenant notices the first of them. -/
def Confined (m : Mask) (tenant : TenantId) (R : α → α → Prop) (call call' : StateM World α) :
    Prop :=
  ∀ s s', Alike m tenant s s' → ∃ x x' t t', Yields call s x t ∧ Yields call' s' x' t' ∧ R x x' ∧
    Alike m tenant t t' ∧ Leaves tenant s t

theorem Confined.andThen {call call' : StateM World α} {f f' : α → StateM World β}
    (h : Confined m tenant R call call')
    (hf : ∀ x x', R x x' → Confined m tenant Q (f x) (f' x')) :
    Confined m tenant Q (call >>= f) (call' >>= f') := by
  intro s s' halike
  obtain ⟨x, x', t, t', hx, hx', hR, halike, hleaves⟩ := h s s' halike
  obtain ⟨y, y', u, u', hy, hy', hQ, halike, hleaves'⟩ := hf x x' hR t t' halike
  exact ⟨y, y', u, u', hx.andThen hy, hx'.andThen hy', hQ, halike, hleaves.trans hleaves'⟩

theorem confined_return {x x' : α} (h : R x x') :
    Confined m tenant R (pure x : StateM World α) (pure x') :=
  fun s s' halike => ⟨x, x', s, s', rfl, rfl, h, halike, leaves_refl tenant s⟩

theorem Confined.map {call call' : StateM World α} {g : α → β}
    (h : Confined m tenant R call call') (hg : ∀ x x', R x x' → Q (g x) (g x')) :
    Confined m tenant Q (g <$> call) (g <$> call') := by
  intro s s' halike
  obtain ⟨x, x', t, t', hx, hx', hR, hrest⟩ := h s s' halike
  exact ⟨g x, g x', t, t', hx.map g, hx'.map g, hg x x' hR, hrest⟩

theorem confined_pure {x x' : α} (h : R x x') :
    Confined m tenant (Matches R) (pure x : ExceptT ε (StateM World) α).run
      (pure x' : ExceptT ε (StateM World) α).run :=
  confined_return (.ok h)

theorem confined_throw (e : ε) :
    Confined m tenant (Matches R) (throw e : ExceptT ε (StateM World) α).run
      (throw e : ExceptT ε (StateM World) α).run :=
  confined_return (.error e)

theorem Confined.bind {a a' : ExceptT ε (StateM World) α} {f f' : α → ExceptT ε (StateM World) β}
    (h : Confined m tenant (Matches R) a.run a'.run)
    (hf : ∀ x x', R x x' → Confined m tenant (Matches Q) (f x).run (f' x').run) :
    Confined m tenant (Matches Q) (a >>= f).run (a' >>= f').run := by
  rw [ExceptT.run_bind, ExceptT.run_bind]
  refine h.andThen fun x x' hx => ?_
  cases hx with
  | ok hR => exact hf _ _ hR
  | error e => exact confined_return (.error e)

/-- A list of calls that keep to a tenant. -/
theorem Confined.mapM {γ : Type} {f : γ → ExceptT ε (StateM World) α}
    (hf : ∀ x, Confined m tenant (Matches Eq) (f x).run (f x).run) :
    ∀ xs : List γ, Confined m tenant (Matches Eq) (xs.mapM f).run (xs.mapM f).run := by
  intro xs
  induction xs with
  | nil => exact confined_pure rfl
  | cons x xs ih =>
      rw [List.mapM_cons]
      refine (hf x).bind fun y y' hy => ih.bind fun ys ys' hys => confined_pure ?_
      rw [hy, hys]

theorem confined_ask (name : StoreName) {read read' : Stores → Except StoreError α}
    (h : ∀ s s', Alike m tenant s s' → Matches R (read s) (read' s')) :
    Confined m tenant (Matches R) (ask name read) (ask name read') :=
  fun s s' halike =>
    ⟨_, _, s, s', yields_ask name read, yields_ask name read', h s s' halike, halike,
      leaves_refl tenant s⟩

/-- What is read is the same. -/
theorem confined_ask_eq (name : StoreName) {read : Stores → Except StoreError α}
    (h : ∀ s s', Alike m tenant s s' → read s = read s') :
    Confined m tenant (Matches Eq) (ask name read) (ask name read) := by
  refine confined_ask name fun s s' halike => ?_
  rw [h s s' halike]
  cases read s' with
  | ok x => exact .ok rfl
  | error e => exact .error e

theorem confined_change (name : StoreName) {f f' : Stores → Stores × α}
    (h : ∀ s s', Alike m tenant s s' →
      R (f s).2 (f' s').2 ∧ Alike m tenant (f s).1 (f' s').1 ∧ Leaves tenant s (f s).1) :
    Confined m tenant (Matches R) (change name f) (change name f') := by
  intro s s' halike
  obtain ⟨hR, hrest⟩ := h s s' halike
  exact ⟨_, _, _, _, yields_change name f, yields_change name f', .ok hR, hrest⟩

end Confined

end World

namespace Action

open World

variable {m : Mask} {tenant : TenantId} {ε α : Type} {R : α → α → Prop}

theorem confined_attempt {call call' : StateM World (Except ε α)}
    (h : Confined m tenant (Matches R) call call') :
    Confined m tenant (Matches (Matches R)) (attempt call).run (attempt call').run :=
  h.map fun _ _ => .ok

theorem confined_ofStore {call call' : StateM World (Except StoreError α)}
    (h : Confined m tenant (Matches R) call call') :
    Confined m tenant (Matches R) (ofStore call).run (ofStore call').run :=
  h.map fun _ _ hx => hx.mapError _

theorem confined_ofLearning {step step' : Learning.Step α}
    (h : Confined m tenant (Matches R) step.run step'.run) :
    Confined m tenant (Matches R) (ofLearning step).run (ofLearning step').run :=
  h.map fun _ _ hx => hx.mapError _

theorem confined_ofDecimal (x : Option α) :
    Confined m tenant (Matches Eq) (ofDecimal x).run (ofDecimal x).run := by
  cases x with
  | none => exact confined_throw _
  | some x => exact confined_pure rfl

theorem confined_refuse {φ : Type} (fault : Option φ) (error : φ → ServiceError) :
    Confined m tenant (Matches Eq) (refuse fault error).run (refuse fault error).run := by
  cases fault with
  | none => exact confined_pure rfl
  | some f => exact confined_throw _

end Action

end Estimating
