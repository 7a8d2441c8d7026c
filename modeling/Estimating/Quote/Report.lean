/-
Quotes as they are handed out.

* `Report` — the lines of a quote, what went wrong with them, and what they come to;
* `tuneAll` — lines tuned by what has been learned for their items.  A line without a value is left
  as it is;
* `Report.ofDrafts` — the report of lines; there is none where a number is too large for a decimal.
-/
import Estimating.Learning.Application
import Estimating.Project.Store
import Estimating.Quote.Draft

set_option autoImplicit false

namespace Estimating

/-! ### Tuning of lines -/

/-- What has been learned for an item. -/
def patternFor (patterns : List Pattern) (item : String) : Option Pattern :=
  patterns.find? fun p => p.key.item == item

/-- A line after tuning. -/
def Draft.tune (d : Draft) (patterns : List Pattern) (policy : Policy) : Option Item :=
  if d.evaluated then d.item.tune (patternFor patterns d.item.item) policy else some d.item

/-- All lines after tuning. -/
def tuneAll (drafts : List Draft) (patterns : List Pattern) (policy : Policy) :
    Option (List Item) :=
  drafts.mapM fun d => d.tune patterns policy

/-! ### Reports -/

/-- A quote as it is handed out. -/
structure Report where
  tenant : TenantId
  quote : Option QuoteId
  key : RuleKey
  profile : String
  currency : String
  /-- Tax in percent. -/
  vatRate : Decimal
  items : List Item
  failures : List Failure
  totals : Totals
  /-- Whether the learned factors could be read. -/
  tuningAvailable : Bool
deriving DecidableEq, Repr

namespace Report

/-- The currency and tax rate of a profile, or those that stand in for it. -/
def terms (defaults : PriceDefaults) : Option PriceProfile → String × Decimal
  | some p => (p.currency, p.vatRate)
  | none => (defaults.currency, defaults.vatRate)

/-- The report of lines.  Without `patterns` they stay untuned. -/
def ofDrafts (defaults : PriceDefaults) (policy : Policy) (tenant : TenantId) (key : RuleKey)
    (profile : String) (drafts : List Draft) (described : Option PriceProfile)
    (patterns : Option (List Pattern)) : Option Report := do
  let items ← tuneAll drafts (patterns.getD []) policy
  let (currency, vatRate) := terms defaults described
  let totals ← Totals.ofItems items vatRate
  return {
    tenant, quote := none, key, profile, currency, vatRate, items
    failures := drafts.flatMap Draft.failures
    totals, tuningAvailable := patterns.isSome }

/-- The first line of an item. -/
def item? (r : Report) (item : String) : Option Item := r.items.find? fun i => i.item == item

/-- Whether nothing went wrong. -/
def isClean (r : Report) : Bool := r.failures.isEmpty

/-- How many lines a learned factor was used on. -/
def tunedCount (r : Report) : Nat := r.items.countP fun i => i.tuning.applied

/-- A report as JSON. -/
def toJson (r : Report) : Json :=
  .object (
    Json.member "tenant" (.string r.tenant) ++
    Json.memberIf "quote_id" .string r.quote ++
    Json.member "rule_key" r.key.toJson ++
    Json.member "profile" (.string r.profile) ++
    Json.member "currency" (.string r.currency) ++
    Json.member "vat_rate" r.vatRate.toJson ++
    Json.member "items" (Json.ofList Item.toJson r.items) ++
    Json.member "failures" (Json.ofList Failure.toJson r.failures) ++
    Json.member "totals" r.totals.toJson ++
    Json.member "tuning_available" (.bool r.tuningAvailable))

/-- The report that a JSON record gives. -/
def ofJson? : Json → Option Report := Json.record? do
  let tenant ← Json.required "tenant" Json.text?
  let quote ← Json.optional "quote_id" Json.text?
  let key ← Json.required "rule_key" RuleKey.ofJson?
  let profile ← Json.required "profile" Json.text?
  let currency ← Json.required "currency" Json.text?
  let vatRate ← Json.required "vat_rate" Decimal.ofJson?
  let items ← Json.required "items" (Json.list? Item.ofJson?)
  let failures ← Json.required "failures" (Json.list? Failure.ofJson?)
  let totals ← Json.required "totals" Totals.ofJson?
  let tuningAvailable ← Json.required "tuning_available" Json.flag?
  return {
    tenant, quote, key, profile, currency, vatRate, items, failures, totals, tuningAvailable }

end Report
end Estimating
