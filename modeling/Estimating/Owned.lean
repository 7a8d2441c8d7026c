/-
Keys that belong to a tenant.

Everything that is stored belongs to one tenant, and what two tenants store under one key are two
things.

* `Owned` — a tenant and a key, ordered by tenant first;
* `Owned.list` — what a table holds for one tenant, in the order of the keys.
-/
import Estimating.Table

set_option autoImplicit false

namespace Estimating

/-- The name of a tenant. -/
abbrev TenantId := String

/-- A key of type `κ` that belongs to a tenant. -/
structure Owned (κ : Type) where
  tenant : TenantId
  key : κ
deriving DecidableEq, Repr

namespace Owned

variable {κ : Type}

theorem eq_of_parts {a b : Owned κ} (ht : a.tenant = b.tenant) (hk : a.key = b.key) : a = b := by
  cases a
  cases b
  cases ht
  cases hk
  rfl

variable [Ord κ]

/-- The order of owned keys: by tenant, then by key. -/
def order : Owned κ → Owned κ → Ordering := compareLex (compareOn tenant) (compareOn key)

instance : Ord (Owned κ) := ⟨order⟩

instance [Std.TransOrd κ] : Std.TransOrd (Owned κ) :=
  inferInstanceAs (Std.TransCmp (compareLex (compareOn tenant) (compareOn key)))

instance [Std.TransOrd κ] [Std.LawfulEqOrd κ] : Std.LawfulEqOrd (Owned κ) where
  eq_of_compare {a b} h := by
    have h : (compare a.tenant b.tenant).then (compare a.key b.key) = .eq := h
    rw [Ordering.then_eq_eq] at h
    exact eq_of_parts (Std.LawfulEqOrd.eq_of_compare h.1) (Std.LawfulEqOrd.eq_of_compare h.2)

/-- What a table holds for one tenant, in the order of the keys. -/
def list {α : Type} [Std.TransOrd κ] (t : Table (Owned κ) α) (tenant : TenantId) : List α :=
  (t.toList.filter fun e => e.1.tenant == tenant).map Prod.snd

end Owned
end Estimating
