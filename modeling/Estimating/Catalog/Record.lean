/-
What a price catalog holds.

* `PriceProfile` — a named set of prices with its currency and tax rate;
* `LaborRate` — the price of a kind of work;
* `Material` — an article with its cost and a markup;
* `Material.unitPrice` — the price that it is sold at.
-/
import Estimating.Quote.Totals

set_option autoImplicit false

namespace Estimating

/-! ### Profiles -/

/-- A named set of prices. -/
structure PriceProfile where
  id : String
  name : String
  currency : String
  /-- Tax in percent. -/
  vatRate : Decimal
deriving DecidableEq, Repr

namespace PriceProfile

/-- The currency of a profile that names none. -/
def standardCurrency : String := "SEK"

/-- The tax rate of a profile that names none. -/
def standardVatRate : Decimal := .whole 25

/-- A profile as JSON. -/
def toJson (p : PriceProfile) : Json :=
  .object (
    Json.member "id" (.string p.id) ++
    Json.member "name" (.string p.name) ++
    Json.member "currency" (.string p.currency) ++
    Json.member "vat_rate" p.vatRate.toJson)

/-- The profile that a JSON record gives. -/
def ofJson? : Json → Option PriceProfile := Json.record? do
  let id ← Json.required "id" Json.text?
  let name ← Json.required "name" Json.text?
  let currency ← Json.withDefault "currency" Json.text? standardCurrency
  let vatRate ← Json.withDefault "vat_rate" Decimal.ofJson? standardVatRate
  return ⟨id, name, currency, vatRate⟩

end PriceProfile

/-! ### Labor -/

/-- The price of a kind of work. -/
structure LaborRate where
  code : String
  description : String
  unit : String
  unitPrice : Decimal
deriving DecidableEq, Repr

namespace LaborRate

/-- The unit of work that names none. -/
def standardUnit : String := "hour"

/-- A labor rate as JSON. -/
def toJson (r : LaborRate) : Json :=
  .object (
    Json.member "code" (.string r.code) ++
    Json.member "description" (.string r.description) ++
    Json.member "unit" (.string r.unit) ++
    Json.member "unit_price" r.unitPrice.toJson)

/-- The labor rate that a JSON record gives. -/
def ofJson? : Json → Option LaborRate := Json.record? do
  let code ← Json.required "code" Json.text?
  let description ← Json.required "description" Json.text?
  let unit ← Json.withDefault "unit" Json.text? standardUnit
  let unitPrice ← Json.required "unit_price" Decimal.ofJson?
  return ⟨code, description, unit, unitPrice⟩

end LaborRate

/-! ### Materials -/

/-- An article. -/
structure Material where
  /-- The article number. -/
  sku : String
  name : String
  unit : String
  /-- What one unit costs to buy. -/
  unitCost : Decimal
  /-- What is added to the cost, in percent. -/
  markup : Decimal
deriving DecidableEq, Repr

namespace Material

/-- The unit of an article that names none. -/
def standardUnit : String := "pcs"

/-- The markup of an article that names none. -/
def standardMarkup : Decimal := .whole 20

/-- What one unit is sold for, if that is a decimal. -/
def unitPrice (m : Material) : Option Decimal := addPercentage m.unitCost m.markup

/-- An article as JSON. -/
def toJson (m : Material) : Json :=
  .object (
    Json.member "sku" (.string m.sku) ++
    Json.member "name" (.string m.name) ++
    Json.member "unit" (.string m.unit) ++
    Json.member "unit_cost" m.unitCost.toJson ++
    Json.member "markup_pct" m.markup.toJson)

/-- The article that a JSON record gives. -/
def ofJson? : Json → Option Material := Json.record? do
  let sku ← Json.required "sku" Json.text?
  let name ← Json.required "name" Json.text?
  let unit ← Json.withDefault "unit" Json.text? standardUnit
  let unitCost ← Json.required "unit_cost" Decimal.ofJson?
  let markup ← Json.withDefault "markup_pct" Decimal.ofJson? standardMarkup
  return ⟨sku, name, unit, unitCost, markup⟩

end Material
end Estimating
