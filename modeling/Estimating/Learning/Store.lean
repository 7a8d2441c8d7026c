/-
The store of learned patterns.

Writes are optimistic: a writer says which version it has read, and the store refuses the write if
another one came in between.  Version zero stands for a pattern that is not there.

* `PatternStore` — the patterns of all tenants;
* `PatternStore.get`, `PatternStore.write`, `PatternStore.list`, `PatternStore.delete` — its
  operations;
* `PatternStore.write_eq_ok_iff` — a write succeeds exactly when its version is the stored one;
* `PatternStore.get_insert`, `PatternStore.get_delete` — what is read after a change.
-/
import Estimating.Learning.Pattern
import Estimating.StoreError

set_option autoImplicit false

namespace Estimating

/-- The patterns of all tenants. -/
abbrev PatternStore := Table (Owned PatternKey) Pattern

namespace PatternStore

/-- The pattern of a key. -/
def get (s : PatternStore) (tenant : TenantId) (key : PatternKey) : Option Pattern :=
  s[(⟨tenant, key⟩ : Owned PatternKey)]?

/-- The version stored under a key, zero if there is none. -/
def versionAt (s : PatternStore) (tenant : TenantId) (key : PatternKey) : Nat :=
  match s.get tenant key with
  | some p => p.version
  | none => 0

/-- Stores a pattern under the version after the expected one, if the expected one is stored. -/
def write (s : PatternStore) (p : Pattern) (expected : Nat) :
    Except StoreError (PatternStore × Pattern) :=
  let actual := s.versionAt p.tenant p.key
  if actual = expected then
    let saved := { p with version := actual + 1 }
    .ok (s.insert p.place saved, saved)
  else .error (.versionConflict p.key.text expected actual)

theorem write_eq_ok_iff {s s' : PatternStore} {p saved : Pattern} {expected : Nat} :
    s.write p expected = .ok (s', saved) ↔
      s.versionAt p.tenant p.key = expected ∧ saved = { p with version := expected + 1 } ∧
        s' = s.insert p.place saved := by
  by_cases h : s.versionAt p.tenant p.key = expected
  · subst h
    simp only [write, if_true, true_and]
    constructor
    · intro h
      cases h
      exact ⟨rfl, rfl⟩
    · rintro ⟨rfl, rfl⟩
      rfl
  · simp only [write, h, false_and, iff_false]
    intro h'
    cases h'

/-- Reading after a pattern has been stored: it is found under its own tenant and key only. -/
theorem get_insert (s : PatternStore) (p : Pattern) (tenant : TenantId) (key : PatternKey) :
    get (s.insert p.place p) tenant key =
      if p.tenant = tenant ∧ p.key = key then some p else s.get tenant key := by
  simp only [get, Table.get_insert, Pattern.place, Owned.mk.injEq]

/-- The patterns of a tenant, in the order of their keys. -/
def list (s : PatternStore) (tenant : TenantId) : List Pattern := Owned.list s tenant

/-- Removes a pattern; also tells whether there was one. -/
def delete (s : PatternStore) (tenant : TenantId) (key : PatternKey) : PatternStore × Bool :=
  (s.erase ⟨tenant, key⟩, s.contains ⟨tenant, key⟩)

/-- Reading after a removal: only what was removed is gone. -/
theorem get_delete (s : PatternStore) (tenant tenant' : TenantId) (key key' : PatternKey) :
    (s.delete tenant key).1.get tenant' key' =
      if tenant = tenant' ∧ key = key' then none else s.get tenant' key' := by
  simp only [get, delete, Table.get_erase, Owned.mk.injEq]

end PatternStore
end Estimating
