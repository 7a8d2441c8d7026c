/-
Data to begin with: the profiles, prices and rules of one tenant.

* `Seed` — the data; `Seed.ofText?` reads them from a JSON text;
* `Seed.populate` — the catalog with the prices added;
* `Seed.install` — stores the rules one by one, until one is refused.
-/
import Estimating.Json.Reader
import Estimating.Service.Operations

set_option autoImplicit false

namespace Estimating

/-! ### Profiles -/

/-- A profile with its prices. -/
structure InitialProfile where
  id : String
  name : String
  currency : Option String
  vatRate : Option Decimal
  laborRates : List LaborRate
  materials : List Material
deriving DecidableEq, Repr

namespace InitialProfile

/-- The description of the profile. -/
def profile (p : InitialProfile) : PriceProfile :=
  ⟨p.id, p.name, p.currency.getD PriceProfile.standardCurrency,
    p.vatRate.getD PriceProfile.standardVatRate⟩

/-- The catalog with the profile and its prices added. -/
def populate (p : InitialProfile) (tenant : TenantId) (c : Catalog) : Catalog :=
  let c := c.putProfile tenant p.profile
  let c := p.laborRates.foldl (fun c r => c.putLabor tenant p.id r) c
  p.materials.foldl (fun c m => c.putMaterial tenant p.id m) c

/-- A profile as JSON. -/
def toJson (p : InitialProfile) : Json :=
  .object (
    Json.member "id" (.string p.id) ++
    Json.member "name" (.string p.name) ++
    Json.memberIf "currency" .string p.currency ++
    Json.memberIf "vat_rate" Decimal.toJson p.vatRate ++
    Json.member "labor_rates" (Json.ofList LaborRate.toJson p.laborRates) ++
    Json.member "materials" (Json.ofList Material.toJson p.materials))

/-- The profile that a JSON record gives. -/
def ofJson? : Json → Option InitialProfile := Json.record? do
  let id ← Json.required "id" Json.text?
  let name ← Json.required "name" Json.text?
  let currency ← Json.optionalOr "currency" Json.text?
  let vatRate ← Json.optionalOr "vat_rate" Decimal.ofJson?
  let laborRates ← Json.withDefault "labor_rates" (Json.list? LaborRate.ofJson?) []
  let materials ← Json.withDefault "materials" (Json.list? Material.ofJson?) []
  return ⟨id, name, currency, vatRate, laborRates, materials⟩

end InitialProfile

/-! ### Rules -/

/-- A rule without its tenant. -/
structure InitialRule where
  key : RuleKey
  labor : Table String String
  materials : Table String String

namespace InitialRule

/-- The rule of a tenant. -/
def rule (r : InitialRule) (tenant : TenantId) (now : Timestamp) : Rule :=
  ⟨tenant, r.key, r.labor, r.materials, now, now⟩

/-- A rule as JSON. -/
def toJson (r : InitialRule) : Json :=
  .object (
    Json.member "key" r.key.toJson ++
    Json.member "labor" (Rule.sectionToJson r.labor) ++
    Json.member "materials" (Rule.sectionToJson r.materials))

/-- The rule that a JSON record gives. -/
def ofJson? : Json → Option InitialRule := Json.record? do
  let key ← Json.required "key" RuleKey.ofJson?
  let labor ← Json.withDefault "labor" Rule.sectionOfJson? ∅
  let materials ← Json.withDefault "materials" Rule.sectionOfJson? ∅
  return ⟨key, labor, materials⟩

end InitialRule

/-! ### All data -/

/-- The data of one tenant. -/
structure Seed where
  tenant : TenantId
  profiles : List InitialProfile
  rules : List InitialRule

namespace Seed

/-- The catalog with the prices added. -/
def populate (s : Seed) (c : Catalog) : Catalog :=
  s.profiles.foldl (fun c p => p.populate s.tenant c) c

/-- Stores the rules one by one, until one is refused; tells how many there are. -/
def install (s : Seed) (config : Config) (now : Timestamp) : Action Nat := do
  for r in s.rules do
    Service.putRule config (r.rule s.tenant now)
  return s.rules.length

/-- A seed as JSON. -/
def toJson (s : Seed) : Json :=
  .object (
    Json.member "tenant" (.string s.tenant) ++
    Json.member "profiles" (Json.ofList InitialProfile.toJson s.profiles) ++
    Json.member "rules" (Json.ofList InitialRule.toJson s.rules))

/-- The seed that a JSON record gives. -/
def ofJson? : Json → Option Seed := Json.record? do
  let tenant ← Json.required "tenant" Json.text?
  let profiles ← Json.withDefault "profiles" (Json.list? InitialProfile.ofJson?) []
  let rules ← Json.withDefault "rules" (Json.list? InitialRule.ofJson?) []
  return ⟨tenant, profiles, rules⟩

/-- The seed that a JSON text gives. -/
def ofText? (text : String) : Option Seed := (Json.parse text).bind ofJson?

end Seed
end Estimating
