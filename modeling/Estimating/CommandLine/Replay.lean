/-
Replay files: quotes and the edits that users made to them.

* `Replay.Edit`, `Replay.Quote` — an edit of one line, and a quote with its edits;
* `Replay.ofText?` — the quotes of a file;
* `Replay.Result` — what became of an edit.
-/
import Estimating.Correction.Basic
import Estimating.Json.Reader

set_option autoImplicit false

namespace Estimating.Replay

/-- An edit of one line. -/
structure Edit where
  kind : ItemKind
  item : String
  newQty : Decimal
  reason : Option String
deriving DecidableEq, Repr

/-- The edit that a JSON record gives. -/
def Edit.ofJson? : Json → Option Edit := Json.record? do
  let kind ← Json.required "kind" ItemKind.ofJson?
  let item ← Json.required "ref" Json.text?
  let newQty ← Json.required "adjusted_qty" Decimal.ofJson?
  let reason ← Json.optionalOr "reason" Json.text?
  return ⟨kind, item, newQty, reason⟩

/-- A quote with its edits. -/
structure Quote where
  id : QuoteId
  requirements : Requirements
  /-- The price profile, if the quote names one. -/
  profile : Option String
  edits : List Edit

/-- The quote that a JSON record gives. -/
def Quote.ofJson? : Json → Option Quote := Json.record? do
  let id ← Json.required "quote_id" Json.text?
  let requirements ← Json.required "requirements" Requirements.ofJson?
  let profile ← Json.optionalOr "profile" Json.text?
  let edits ← Json.withDefault "edits" (Json.list? Edit.ofJson?) []
  return ⟨id, requirements, profile, edits⟩

/-- The quotes of a file. -/
def ofText? (text : String) : Option (List Quote) :=
  (Json.parse text).bind (Json.list? Quote.ofJson?)

/-- What became of an edit. -/
structure Result where
  quote : QuoteId
  item : String
  oldQty : Decimal
  newQty : Decimal
  outcome : CorrectionOutcome
deriving DecidableEq, Repr

namespace Result

/-- Whether the edit was logged. -/
def isLogged (r : Result) : Bool :=
  match r.outcome with
  | .logged .. => true
  | .ignored => false

/-- Why nothing could be learned from a logged edit. -/
def failure? (r : Result) : Option String :=
  match r.outcome with
  | .logged _ (.failed error) => some error
  | _ => none

/-- A result as JSON. -/
def toJson (r : Result) : Json :=
  .object (
    Json.member "quote_id" (.string r.quote) ++
    Json.member "item_ref" (.string r.item) ++
    Json.member "original_qty" r.oldQty.toJson ++
    Json.member "adjusted_qty" r.newQty.toJson ++
    Json.member "outcome" r.outcome.toJson)

end Result
end Estimating.Replay
