/-
The price catalog of all tenants.

* `Shelf` — what one profile of one tenant holds;
* `Catalog` — the shelves of all profiles.  A shelf may hold prices before its profile is described;
* `Catalog.putProfile`, `Catalog.putLabor`, `Catalog.putMaterial` — additions;
* `Catalog.profile?`, `Catalog.labor?`, `Catalog.material?` — lookups;
* `Catalog.shelf_insert` — an addition to one shelf changes no other one.
-/
import Estimating.Catalog.Record

set_option autoImplicit false

namespace Estimating

/-- What one profile holds. -/
structure Shelf where
  profile : Option PriceProfile
  /-- Labor rates by their codes. -/
  labor : Table String LaborRate
  /-- Materials by their article numbers. -/
  materials : Table String Material

/-- A shelf with nothing on it. -/
def Shelf.empty : Shelf := ⟨none, ∅, ∅⟩

/-- The shelves of all profiles, by their names. -/
abbrev Catalog := Table (Owned String) Shelf

namespace Catalog

/-- The shelf of a profile. -/
def shelf (c : Catalog) (tenant : TenantId) (profile : String) : Shelf :=
  match c.get? ⟨tenant, profile⟩ with
  | some s => s
  | none => .empty

/-- What stands on the shelves after one of them has been replaced. -/
theorem shelf_insert (c : Catalog) (place : Owned String) (s : Shelf) (tenant : TenantId)
    (profile : String) :
    shelf (c.insert place s) tenant profile =
      if place = ⟨tenant, profile⟩ then s else c.shelf tenant profile := by
  have h := Table.get_insert c place ⟨tenant, profile⟩ s
  unfold shelf
  rw [Std.ExtTreeMap.get?_eq_getElem?, Std.ExtTreeMap.get?_eq_getElem?, h]
  by_cases same : place = ⟨tenant, profile⟩
  · rw [if_pos same, if_pos same]
  · rw [if_neg same, if_neg same]

/-- Describes a profile. -/
def putProfile (c : Catalog) (tenant : TenantId) (p : PriceProfile) : Catalog :=
  c.insert ⟨tenant, p.id⟩ { c.shelf tenant p.id with profile := some p }

/-- Adds a labor rate to a profile. -/
def putLabor (c : Catalog) (tenant : TenantId) (profile : String) (r : LaborRate) : Catalog :=
  let s := c.shelf tenant profile
  c.insert ⟨tenant, profile⟩ { s with labor := s.labor.insert r.code r }

/-- Adds a material to a profile. -/
def putMaterial (c : Catalog) (tenant : TenantId) (profile : String) (m : Material) : Catalog :=
  let s := c.shelf tenant profile
  c.insert ⟨tenant, profile⟩ { s with materials := s.materials.insert m.sku m }

/-- The description of a profile. -/
def profile? (c : Catalog) (tenant : TenantId) (profile : String) : Option PriceProfile :=
  (c.shelf tenant profile).profile

/-- The labor rate of a code. -/
def labor? (c : Catalog) (tenant : TenantId) (profile code : String) : Option LaborRate :=
  (c.shelf tenant profile).labor[code]?

/-- The material of an article number. -/
def material? (c : Catalog) (tenant : TenantId) (profile sku : String) : Option Material :=
  (c.shelf tenant profile).materials[sku]?

end Catalog
end Estimating
