/-
Sums of a quote.

* `addPercentage` — an amount raised by a percentage;
* `Totals` — subtotal, tax and their sum;
* `Totals.ofItems` — the totals of lines at a tax rate; there are none where a sum or product is too
  large for a decimal.
-/
import Estimating.Quote.Item

set_option autoImplicit false

namespace Estimating

/-- `value * (1 + percentage / 100)` to two fraction digits, if it is a decimal. -/
def addPercentage (value percentage : Decimal) : Option Decimal := do
  let factor ← Decimal.one.add (← percentage.div .hundred)
  return (← value.mul factor).roundMoney

/-- What the lines of a quote come to. -/
structure Totals where
  /-- The sum of the lines. -/
  subtotal : Decimal
  vat : Decimal
  total : Decimal
deriving DecidableEq, Repr

namespace Totals

/-- The totals of a list of line totals at a tax rate in percent. -/
def ofLineTotals (lineTotals : List Decimal) (vatRate : Decimal) : Option Totals := do
  let subtotal := (← Decimal.sum lineTotals).roundMoney
  let vat := (← (← subtotal.mul vatRate).div .hundred).roundMoney
  let total := (← subtotal.add vat).roundMoney
  return ⟨subtotal, vat, total⟩

/-- The totals of lines at a tax rate in percent. -/
def ofItems (items : List Item) (vatRate : Decimal) : Option Totals :=
  ofLineTotals (items.map Item.lineTotal) vatRate

/-- Totals as JSON. -/
def toJson (t : Totals) : Json :=
  .object (
    Json.member "subtotal" t.subtotal.toJson ++
    Json.member "vat" t.vat.toJson ++
    Json.member "total" t.total.toJson)

/-- The totals that a JSON record gives. -/
def ofJson? : Json → Option Totals := Json.record? do
  let subtotal ← Json.required "subtotal" Decimal.ofJson?
  let vat ← Json.required "vat" Decimal.ofJson?
  let total ← Json.required "total" Decimal.ofJson?
  return ⟨subtotal, vat, total⟩

end Totals
end Estimating
