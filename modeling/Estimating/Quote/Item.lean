/-
Lines of a quote.

* `LineQuality` — whether quantity and price of a line came out clean;
* `TuningNote` — what a learned factor did to a line;
* `Item` — a line: an item, its quantity before and after tuning, its price and their product;
* `Item.build`, `Item.setQty` — a line from its quantity and price, and a line with another
  quantity.  There is no line where the product is too large for a decimal;
* `Item.warn` — a line with a warning, which lowers its confidence.
-/
import Estimating.Learning.Confidence
import Estimating.Project.Rule

set_option autoImplicit false

namespace Estimating

/-! ### Confidence of a line -/

/-- Whether quantity and price of a line came out clean. -/
inductive LineQuality
  | /-- The expression has a value and the catalog a price. -/
    high
  | /-- One of the two is missing. -/
    low
deriving DecidableEq, Repr

namespace LineQuality

/-- The name of a confidence. -/
def name : LineQuality → String
  | high => "high"
  | low => "low"

/-- The confidence of a name. -/
def ofName? : String → Option LineQuality
  | "high" => some high
  | "low" => some low
  | _ => none

/-- A confidence as JSON. -/
def toJson (c : LineQuality) : Json := .string c.name

/-- The confidence that a JSON constant names. -/
def ofJson? (j : Json) : Option LineQuality := (Json.name? j).bind ofName?

end LineQuality

/-! ### Notes on tuning -/

/-- What a learned factor did to a line. -/
structure TuningNote where
  /-- Whether the quantity was multiplied by the factor. -/
  applied : Bool
  /-- The learned factor, if there is one. -/
  factor : Option Decimal
  tier : Tier
  samples : Nat
deriving DecidableEq, Repr

namespace TuningNote

/-- The note on a line for which nothing has been learned. -/
def untuned : TuningNote := ⟨false, none, .low, 0⟩

/-- A note as JSON. -/
def toJson (n : TuningNote) : Json :=
  .object (
    Json.member "applied" (.bool n.applied) ++
    Json.memberIf "factor" Decimal.toJson n.factor ++
    Json.member "tier" n.tier.toJson ++
    Json.member "sample_count" (Json.ofCount n.samples))

/-- The note that a JSON record gives. -/
def ofJson? : Json → Option TuningNote := Json.record? do
  let applied ← Json.required "applied" Json.flag?
  let factor ← Json.optional "factor" Decimal.ofJson?
  let tier ← Json.required "tier" Tier.ofJson?
  let samples ← Json.required "sample_count" Json.count32?
  return ⟨applied, factor, tier, samples⟩

end TuningNote

/-! ### Lines -/

/-- A line of a quote. -/
structure Item where
  kind : ItemKind
  /-- The code of a labor rate or the article number of a material. -/
  item : String
  description : String
  /-- The quantity after tuning. -/
  qty : Decimal
  /-- The quantity before tuning. -/
  baseQty : Decimal
  unit : String
  unitPrice : Decimal
  /-- The product of quantity and price. -/
  lineTotal : Decimal
  confidence : LineQuality
  tuning : TuningNote
  warning : Option String
deriving DecidableEq, Repr

namespace Item

/-- The product of a quantity and a price to two fraction digits, if it is a decimal. -/
def product? (qty unitPrice : Decimal) : Option Decimal := (qty.mul unitPrice).map .roundMoney

/-- A new line.  Quantity and price are rounded to two fraction digits before they are
multiplied. -/
def build (kind : ItemKind) (item description : String) (qty : Decimal) (unit : String)
    (unitPrice : Decimal) : Option Item :=
  (product? qty.roundMoney unitPrice.roundMoney).map fun lineTotal =>
    { kind, item, description, qty := qty.roundMoney, baseQty := qty.roundMoney, unit
      unitPrice := unitPrice.roundMoney, lineTotal, confidence := .high, tuning := .untuned
      warning := none }

/-- The line with another quantity after tuning. -/
def setQty (i : Item) (qty : Decimal) : Option Item :=
  (product? qty.roundMoney i.unitPrice).map fun lineTotal =>
    { i with qty := qty.roundMoney, lineTotal }

/-- The line with a warning. -/
def warn (i : Item) (warning : String) : Item :=
  { i with warning := some warning, confidence := .low }

/-! ### JSON -/

/-- A line as JSON. -/
def toJson (i : Item) : Json :=
  .object (
    Json.member "kind" i.kind.toJson ++
    Json.member "ref" (.string i.item) ++
    Json.member "description" (.string i.description) ++
    Json.member "qty" i.qty.toJson ++
    Json.member "base_qty" i.baseQty.toJson ++
    Json.member "unit" (.string i.unit) ++
    Json.member "unit_price" i.unitPrice.toJson ++
    Json.member "line_total" i.lineTotal.toJson ++
    Json.member "confidence" i.confidence.toJson ++
    Json.member "tuning" i.tuning.toJson ++
    Json.memberIf "warning" .string i.warning)

/-- The line that a JSON record gives. -/
def ofJson? : Json → Option Item := Json.record? do
  let kind ← Json.required "kind" ItemKind.ofJson?
  let item ← Json.required "ref" Json.text?
  let description ← Json.required "description" Json.text?
  let qty ← Json.required "qty" Decimal.ofJson?
  let baseQty ← Json.required "base_qty" Decimal.ofJson?
  let unit ← Json.required "unit" Json.text?
  let unitPrice ← Json.required "unit_price" Decimal.ofJson?
  let lineTotal ← Json.required "line_total" Decimal.ofJson?
  let confidence ← Json.required "confidence" LineQuality.ofJson?
  let tuning ← Json.required "tuning" TuningNote.ofJson?
  let warning ← Json.optional "warning" Json.text?
  return {
    kind, item, description, qty, baseQty, unit, unitPrice, lineTotal, confidence, tuning, warning }

end Item
end Estimating
