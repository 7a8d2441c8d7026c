/-
Lines of a quote before tuning.

Each entry of a rule becomes one line, whatever goes wrong with it: without a value its quantity is
zero, and without a price it is free.  What went wrong is told in a warning on the line and in a
list of failures.

* `Failure` — what went wrong with a line;
* `Row` — what the catalog has for an item;
* `Lookup` — the answer of the catalog: a row, none, or an error;
* `failures` — what goes wrong with an entry, given the value of its expression and the answer of
  the catalog;
* `Draft.ofEntry` — the line of an entry with its failures; there is none where a price or product
  is too large for a decimal.
-/
import Estimating.Catalog.Defaults
import Estimating.Expression.Compiled
import Estimating.StoreError

set_option autoImplicit false

namespace Estimating

/-! ### Failures -/

/-- Where something went wrong. -/
inductive Stage
  | evaluation
  | pricing
deriving DecidableEq, Repr

namespace Stage

/-- The name of a stage. -/
def name : Stage → String
  | evaluation => "evaluation"
  | pricing => "pricing"

/-- The stage of a name. -/
def ofName? : String → Option Stage
  | "evaluation" => some evaluation
  | "pricing" => some pricing
  | _ => none

/-- The name of a stage in a list shown to people. -/
def title : Stage → String
  | evaluation => "Evaluation"
  | pricing => "Pricing"

/-- A stage as JSON. -/
def toJson (s : Stage) : Json := .string s.name

/-- The stage that a JSON constant names. -/
def ofJson? (j : Json) : Option Stage := (Json.name? j).bind ofName?

end Stage

/-- What went wrong with a line. -/
structure Failure where
  kind : ItemKind
  item : String
  stage : Stage
  /-- The class of the error. -/
  error : String
  message : String
deriving DecidableEq, Repr

namespace Failure

/-- A failure as JSON. -/
def toJson (f : Failure) : Json :=
  .object (
    Json.member "kind" f.kind.toJson ++
    Json.member "item_ref" (.string f.item) ++
    Json.member "stage" f.stage.toJson ++
    Json.member "error" (.string f.error) ++
    Json.member "message" (.string f.message))

/-- The failure that a JSON record gives. -/
def ofJson? : Json → Option Failure := Json.record? do
  let kind ← Json.required "kind" ItemKind.ofJson?
  let item ← Json.required "item_ref" Json.text?
  let stage ← Json.required "stage" Stage.ofJson?
  let error ← Json.required "error" Json.text?
  let message ← Json.required "message" Json.text?
  return ⟨kind, item, stage, error, message⟩

end Failure

/-! ### Prices -/

/-- What a catalog has for an item. -/
inductive Row
  | labor (rate : LaborRate)
  | material (material : Material)
deriving DecidableEq, Repr

/-- The answer of a catalog: a row, none, or an error. -/
abbrev Lookup := Except StoreError (Option Row)

/-! ### Lines -/

/-- The value of an entry. -/
def Entry.value (e : Entry) (limits : Expression.Limits) (bindings : Bindings) :
    Except Expression.Error Decimal :=
  Expression.evalText e.expression bindings limits

/-- The entry as failures name it. -/
def Entry.label (e : Entry) : String := e.kind.name ++ " '" ++ e.item ++ "'"

/-- The failure of an entry that has no value. -/
def Entry.evaluationFailure? (e : Entry) : Except Expression.Error Decimal → Option Failure
  | .ok _ => none
  | .error error => some ⟨e.kind, e.item, .evaluation, error.kind.name, error.message⟩

/-- The failure of an entry that has no price. -/
def Entry.pricingFailure? (e : Entry) : Lookup → Option Failure
  | .ok (some _) => none
  | .ok none =>
    some ⟨e.kind, e.item, .pricing, "CatalogMiss", "no catalog entry for " ++ e.label⟩
  | .error cause =>
    some ⟨e.kind, e.item, .pricing, "CatalogUnavailable",
      "catalog unavailable for " ++ e.label ++ ": " ++ cause.message⟩

/-- What goes wrong with an entry: first its evaluation, then its price. -/
def Entry.failures (e : Entry) (value : Except Expression.Error Decimal) (lookup : Lookup) :
    List Failure :=
  (e.evaluationFailure? value).toList ++ (e.pricingFailure? lookup).toList

/-- The line of a quantity at the price that a catalog tells, or free of charge. -/
def Entry.price (e : Entry) (defaults : PriceDefaults) (qty : Decimal) : Lookup → Option Item
  | .ok (some (.labor r)) => Item.build e.kind e.item r.description qty r.unit r.unitPrice
  | .ok (some (.material m)) => do Item.build e.kind e.item m.name qty m.unit (← m.unitPrice)
  | _ => Item.build e.kind e.item e.item qty (defaults.unitOf e.kind) .zero

/-- A line with a warning of all that went wrong, if anything did. -/
def Item.warnOf (i : Item) (failures : List Failure) : Item :=
  if failures.isEmpty then i else i.warn ("; ".intercalate (failures.map Failure.message))

/-- A line before tuning. -/
structure Draft where
  item : Item
  /-- Whether the expression has a value. -/
  evaluated : Bool
  failures : List Failure
deriving DecidableEq, Repr

namespace Draft

/-- The line of an entry, given its value. -/
def ofValue (defaults : PriceDefaults) (e : Entry) (value : Except Expression.Error Decimal)
    (lookup : Lookup) : Option Draft :=
  (e.price defaults (value.toOption.getD .zero) lookup).map fun item =>
    ⟨item.warnOf (e.failures value lookup), value.isOk, e.failures value lookup⟩

/-- The line of an entry. -/
def ofEntry (limits : Expression.Limits) (defaults : PriceDefaults) (bindings : Bindings)
    (e : Entry) (lookup : Lookup) : Option Draft :=
  ofValue defaults e (e.value limits bindings) lookup

end Draft
end Estimating
