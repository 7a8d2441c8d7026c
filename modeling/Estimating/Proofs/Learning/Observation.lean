/-
One sample more: what it makes of a pattern, and how the result is stored.

The version of a pattern says nothing about what has been learned; it is what makes a write lose
against another one that came in between.

* `Pattern.versioned` — a pattern under another version;
* `Sampling.observe` — the pattern after a sample; it stays under its tenant and key
  (`Sampling.observe_place`), has the sample at the end of its window (`Sampling.observe_recent`)
  and does not depend on the version (`Sampling.observe_versioned`);
* `Sampling.prepare_get` — what is written, and under which version, after reading a store;
* `PatternStore.write_of_versionAt_eq`, `PatternStore.write_of_versionAt_ne` — a write under the
  stored version, and under another one;
* `PatternStore.Placed` — every pattern is stored under its own tenant and key.
-/
import Estimating.Learning.Recording

set_option autoImplicit false

namespace Estimating

/-! ### Patterns after a sample -/

namespace Pattern

/-- The pattern under another version. -/
def versioned (n : Nat) (p : Pattern) : Pattern := { p with version := n }

/-- The version of a pattern is kept and plays no part in what is learned. -/
theorem extend_versioned (n : Nat) (p : Pattern) (sample : Decimal) (policy : Policy)
    (now : Timestamp) :
    (p.versioned n).extend sample policy now = (p.extend sample policy now).map (versioned n) := by
  simp only [extend, versioned]
  cases factorOf policy p.factor (lastOf policy.windowSize (p.recent ++ [sample])) with
  | none => rfl
  | some factor => rfl

end Pattern

namespace Sampling

/-- The pattern after the sample. -/
def observe (s : Sampling) (current : Option Pattern) : Option Pattern :=
  Pattern.next current s.tenant s.key s.sample s.policy s.now

theorem observe_updatedAt {s : Sampling} {current : Option Pattern} {p : Pattern}
    (h : s.observe current = some p) : p.updatedAt = s.now := by
  cases current with
  | none =>
      cases h
      rfl
  | some q =>
      obtain ⟨factor, _, h⟩ := Option.bind_eq_some_iff.1 h
      cases h
      rfl

/-- A pattern that is there gets the sample at the end of its window. -/
theorem observe_recent {s : Sampling} {p next : Pattern} (h : s.observe (some p) = some next) :
    next.recent = Pattern.lastOf s.policy.windowSize (p.recent ++ [s.sample.roundFactor]) := by
  obtain ⟨factor, -, h⟩ := Option.bind_eq_some_iff.1 h
  cases h
  rfl

/-- A pattern stays that of its tenant and key. -/
theorem observe_place {s : Sampling} {current : Option Pattern} {p : Pattern}
    (hplace : ∀ q, current = some q → q.place = ⟨s.tenant, s.key⟩)
    (h : s.observe current = some p) : p.place = ⟨s.tenant, s.key⟩ := by
  cases current with
  | none =>
      cases h
      rfl
  | some q =>
      obtain ⟨factor, _, h⟩ := Option.bind_eq_some_iff.1 h
      cases h
      exact hplace q rfl

theorem observe_versioned (s : Sampling) {current : Option Pattern} {n : Nat}
    (h : current = none → n = 0) :
    s.observe (current.map (Pattern.versioned n)) =
      (s.observe current).map (Pattern.versioned n) := by
  cases current with
  | none =>
      obtain rfl := h rfl
      rfl
  | some p => exact p.extend_versioned n _ _ _

/-- What is written after reading a store, and the version that it is to replace. -/
theorem prepare_get (s : Sampling) (store : PatternStore) :
    s.prepare (store.get s.tenant s.key) =
      (s.observe (store.get s.tenant s.key)).map fun next =>
        (next, store.versionAt s.tenant s.key) := by
  unfold PatternStore.versionAt
  cases store.get s.tenant s.key <;> rfl

end Sampling

/-! ### Writes -/

namespace PatternStore

variable {store : PatternStore} {next : Pattern} {expected : Nat}

/-- The store after a pattern has been written under the version after the stored one. -/
def put (store : PatternStore) (next : Pattern) : PatternStore :=
  store.insert next.place (next.versioned (store.versionAt next.tenant next.key + 1))

/-- A write under the stored version. -/
theorem write_of_versionAt_eq (h : store.versionAt next.tenant next.key = expected) :
    store.write next expected = .ok (store.insert next.place (next.versioned (expected + 1)),
      next.versioned (expected + 1)) :=
  write_eq_ok_iff.2 ⟨h, rfl, rfl⟩

/-- A write under another version than the stored one. -/
theorem write_of_versionAt_ne (h : store.versionAt next.tenant next.key ≠ expected) :
    store.write next expected = .error (.versionConflict next.key.text expected
      (store.versionAt next.tenant next.key)) := by
  simp only [write, h, if_false]

/-- Reading after a write. -/
theorem get_insert_versioned (store : PatternStore) (next : Pattern) (n : Nat) (tenant : TenantId)
    (key : PatternKey) :
    get (store.insert next.place (next.versioned n)) tenant key =
      if next.place = ⟨tenant, key⟩ then some (next.versioned n) else store.get tenant key :=
  Table.get_insert store next.place ⟨tenant, key⟩ (next.versioned n)

/-- Every pattern is stored under its own tenant and key. -/
def Placed (store : PatternStore) : Prop :=
  ∀ tenant key p, store.get tenant key = some p → p.place = ⟨tenant, key⟩

theorem placed_empty : Placed ∅ := by
  intro tenant key p h
  have hnone : get ∅ tenant key = none := Std.ExtTreeMap.getElem?_empty
  rw [hnone] at h
  cases h

theorem Placed.insert (h : store.Placed) (next : Pattern) (n : Nat) :
    Placed (Std.ExtTreeMap.insert store next.place (next.versioned n)) := by
  intro tenant key p hp
  rw [get_insert_versioned] at hp
  split at hp
  · cases hp
    assumption
  · exact h tenant key p hp

theorem Placed.delete (h : store.Placed) (tenant : TenantId) (key : PatternKey) :
    Placed (store.delete tenant key).1 := by
  intro tenant' key' p hp
  rw [get_delete] at hp
  split at hp
  · cases hp
  · exact h tenant' key' p hp

/-- What a recording makes of a stored pattern is written under its own tenant and key. -/
theorem Placed.observe (h : store.Placed) {s : Sampling}
    (hnext : s.observe (store.get s.tenant s.key) = some next) :
    next.place = ⟨s.tenant, s.key⟩ :=
  Sampling.observe_place (h s.tenant s.key) hnext

end PatternStore
end Estimating
