/-
Fallbacks for what a price catalog does not tell.

* `PriceDefaults` — the tax rate, currency and units that stand in for missing ones;
* `PriceDefaults.unitOf` — the unit of an item that the catalog does not have.
-/
import Estimating.Catalog.Record

set_option autoImplicit false

namespace Estimating

/-- What stands in for a part of the catalog that is missing. -/
structure PriceDefaults where
  /-- Tax in percent of a profile that is not described. -/
  vatRate : Decimal
  /-- The currency of a profile that is not described. -/
  currency : String
  /-- The unit of work without a price. -/
  laborUnit : String
  /-- The unit of other items without a price. -/
  materialUnit : String
deriving DecidableEq, Repr

namespace PriceDefaults

/-- The fallbacks in force unless others are set. -/
def standard : PriceDefaults :=
  ⟨PriceProfile.standardVatRate, PriceProfile.standardCurrency, LaborRate.standardUnit,
    Material.standardUnit⟩

/-- The unit of an item without a price. -/
def unitOf (d : PriceDefaults) : ItemKind → String
  | .labor => d.laborUnit
  | .material | .custom => d.materialUnit

/-- Fallbacks as JSON. -/
def toJson (d : PriceDefaults) : Json :=
  .object (
    Json.member "default_vat_rate" d.vatRate.toJson ++
    Json.member "default_currency" (.string d.currency) ++
    Json.member "default_labor_unit" (.string d.laborUnit) ++
    Json.member "default_material_unit" (.string d.materialUnit))

/-- Reads fallbacks out of a JSON record. -/
def read (s : Json.Reading) : Json → Option PriceDefaults := s.record? do
  let vatRate ← Json.withDefault "default_vat_rate" s.decimal? standard.vatRate
  let currency ← Json.withDefault "default_currency" s.text? standard.currency
  let laborUnit ← Json.withDefault "default_labor_unit" s.text? standard.laborUnit
  let materialUnit ← Json.withDefault "default_material_unit" s.text? standard.materialUnit
  return ⟨vatRate, currency, laborUnit, materialUnit⟩

/-- The fallbacks that a JSON record gives. -/
def ofJson? : Json → Option PriceDefaults := read .strict

end PriceDefaults
end Estimating
