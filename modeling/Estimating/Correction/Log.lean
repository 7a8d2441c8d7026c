/-
The log of corrections.

Entries are added and never changed.  A log is kept in memory or as a text with one line for each
entry, and both kinds answer alike.

* `LogEntry` — one correction of a quantity;
* `LogEntry.line` — its line;
* `readLines` — the entries of a text; blank lines are skipped;
* `Log.append`, `Log.ofQuote` — addition, and the entries of a quote, the newest first.
-/
import Estimating.EntryId
import Estimating.Json.Writer
import Estimating.Project.Rule
import Estimating.Project.Store
import Estimating.StoreError

set_option autoImplicit false

namespace Estimating

/-! ### Entries -/

/-- One correction of a quantity. -/
structure LogEntry where
  id : EntryId
  tenant : TenantId
  quote : QuoteId
  item : String
  kind : ItemKind
  oldQty : Decimal
  newQty : Decimal
  oldUnitPrice : Option Decimal
  newUnitPrice : Option Decimal
  reason : Option String
  createdAt : Timestamp
deriving DecidableEq, Repr

namespace LogEntry

/-- An entry as JSON; what was not given is left out. -/
def toJson (e : LogEntry) : Json :=
  .object (
    Json.member "id" e.id.toJson ++
    Json.member "tenant" (.string e.tenant) ++
    Json.member "quote_id" (.string e.quote) ++
    Json.member "item_ref" (.string e.item) ++
    Json.member "item_kind" e.kind.toJson ++
    Json.member "original_qty" e.oldQty.toJson ++
    Json.member "adjusted_qty" e.newQty.toJson ++
    Json.memberIf "original_unit_price" Decimal.toJson e.oldUnitPrice ++
    Json.memberIf "adjusted_unit_price" Decimal.toJson e.newUnitPrice ++
    Json.memberIf "reason" .string e.reason ++
    Json.member "created_at" e.createdAt.toJson)

/-- The entry that a JSON record gives. -/
def ofJson? : Json → Option LogEntry := Json.record? do
  let id ← Json.required "id" EntryId.ofJson?
  let tenant ← Json.required "tenant" Json.text?
  let quote ← Json.required "quote_id" Json.text?
  let item ← Json.required "item_ref" Json.text?
  let kind ← Json.required "item_kind" ItemKind.ofJson?
  let oldQty ← Json.required "original_qty" Decimal.ofJson?
  let newQty ← Json.required "adjusted_qty" Decimal.ofJson?
  let oldUnitPrice ← Json.optional "original_unit_price" Decimal.ofJson?
  let newUnitPrice ← Json.optional "adjusted_unit_price" Decimal.ofJson?
  let reason ← Json.optional "reason" Json.text?
  let createdAt ← Json.required "created_at" Timestamp.ofJson?
  return {
    id, tenant, quote, item, kind, oldQty, newQty, oldUnitPrice, newUnitPrice
    reason, createdAt }

/-- The line of an entry, without its end. -/
def line (e : LogEntry) : String := e.toJson.compact

/-- The entry of a line. -/
def ofLine? (line : String) : Option LogEntry := (Json.parse line).bind ofJson?

/-- Whether an entry belongs to a tenant's quote. -/
def isOf (e : LogEntry) (tenant : TenantId) (quote : QuoteId) : Bool :=
  e.tenant == tenant && e.quote == quote

end LogEntry

/-! ### Lines -/

/-- The pieces of a text between its line feeds. -/
def pieces : List Char → List (List Char)
  | [] => [[]]
  | c :: rest =>
    if c = '\n' then [] :: pieces rest
    else
      match pieces rest with
      | [] => [[c]]
      | piece :: more => (c :: piece) :: more

/-- The lines of a text.  A carriage return at the end of a line is white space like any other. -/
def textLines (text : String) : List String := (pieces text.toList).map String.ofList

/-- The entries of a text, if all lines that are not blank hold entries. -/
def readLines (text : String) : Option (List LogEntry) :=
  ((textLines text).filter fun line => !Text.allBlank line).mapM LogEntry.ofLine?

/-! ### Logs -/

/-- A log, in memory or as a text.  There is no text before the first entry. -/
inductive Log
  | memory (entries : List LogEntry)
  | lines (text : Option String)

namespace Log

/-- Adds an entry at the end. -/
def append (log : Log) (e : LogEntry) : Log :=
  match log with
  | memory entries => memory (entries ++ [e])
  | lines text => lines (some (text.getD "" ++ e.line ++ "\n"))

/-- All entries, the oldest first. -/
def entries : Log → Except StoreError (List LogEntry)
  | memory entries => .ok entries
  | lines none => .ok []
  | lines (some text) =>
    match readLines text with
    | some entries => .ok entries
    | none => .error (.serialization "a line of the log holds no entry")

/-- The entries of a quote, the newest first. -/
def ofQuote (log : Log) (tenant : TenantId) (quote : QuoteId) :
    Except StoreError (List LogEntry) :=
  log.entries.map fun es => (es.filter (·.isOf tenant quote)).reverse

end Log
end Estimating
