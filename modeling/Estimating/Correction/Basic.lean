/-
Corrections that users make, and what becomes of them.

* `Correction` — a correction of one quantity of a quote;
* `Correction.fault?` — what is wrong with it, if anything;
* `Significance.isSignificant` — whether a change is large enough to be logged;
* `CorrectionOutcome`, `Lesson` — whether it was logged, and what was learned from it.
-/
import Estimating.EntryId
import Estimating.Learning.Confidence
import Estimating.Project.Requirements
import Estimating.Project.Rule
import Estimating.Project.Store

set_option autoImplicit false

namespace Estimating

/-! ### Requests -/

/-- A correction of one quantity of a quote. -/
structure Correction where
  quote : QuoteId
  kind : ItemKind
  item : String
  oldQty : Decimal
  newQty : Decimal
  oldUnitPrice : Option Decimal
  newUnitPrice : Option Decimal
  reason : Option String
deriving DecidableEq, Repr

namespace Correction

/-- A correction without prices or a reason. -/
def ofQuantities (quote : QuoteId) (kind : ItemKind) (item : String)
    (oldQty newQty : Decimal) : Correction :=
  ⟨quote, kind, item, oldQty, newQty, none, none, none⟩

/-- What is wrong with a request, if anything. -/
def fault? (r : Correction) : Option InputError :=
  if Text.allBlank r.item then some .blankItem
  else if r.oldQty < .zero then some (.negativeOldQty r.oldQty)
  else if r.newQty < .zero then some (.negativeNewQty r.newQty)
  else none

/-- A request as JSON; what was not given is left out. -/
def toJson (r : Correction) : Json :=
  .object (
    Json.member "quote_id" (.string r.quote) ++
    Json.member "item_kind" r.kind.toJson ++
    Json.member "ref" (.string r.item) ++
    Json.member "original_qty" r.oldQty.toJson ++
    Json.member "adjusted_qty" r.newQty.toJson ++
    Json.memberIf "original_unit_price" Decimal.toJson r.oldUnitPrice ++
    Json.memberIf "adjusted_unit_price" Decimal.toJson r.newUnitPrice ++
    Json.memberIf "reason" .string r.reason)

/-- The request that a JSON record gives. -/
def ofJson? : Json → Option Correction := Json.record? do
  let quote ← Json.required "quote_id" Json.text?
  let kind ← Json.required "item_kind" ItemKind.ofJson?
  let item ← Json.required "ref" Json.text?
  let oldQty ← Json.required "original_qty" Decimal.ofJson?
  let newQty ← Json.required "adjusted_qty" Decimal.ofJson?
  let oldUnitPrice ← Json.optionalOr "original_unit_price" Decimal.ofJson?
  let newUnitPrice ← Json.optionalOr "adjusted_unit_price" Decimal.ofJson?
  let reason ← Json.optionalOr "reason" Json.text?
  return ⟨quote, kind, item, oldQty, newQty, oldUnitPrice, newUnitPrice, reason⟩

end Correction

/-! ### Significance -/

/-- Which changes are large enough to be logged. -/
structure Significance where
  /-- The least change, relative to the old quantity. -/
  minChange : Decimal
deriving DecidableEq, Repr

namespace Significance

/-- The threshold in force unless another is set. -/
def standard : Significance := ⟨.hundredths 1⟩

/-- The size of a change relative to the old quantity, if it is a decimal. -/
def relativeChange (old new : Decimal) : Option Decimal := do
  (← new.sub old).abs.div old

/-- Whether a change is large enough to be logged.  Where there was nothing before, every change
is; so is one that is too large to be worked out. -/
def isSignificant (s : Significance) (old new : Decimal) : Bool :=
  if old ≤ .zero then !new.sameValue old
  else
    match relativeChange old new with
    | some change => decide (s.minChange ≤ change)
    | none => true

/-- A threshold as JSON. -/
def toJson (s : Significance) : Json :=
  .object (Json.member "min_relative_change" s.minChange.toJson)

/-- Reads a threshold out of a JSON record. -/
def read (s : Json.Reading) : Json → Option Significance := s.record? do
  return ⟨← Json.withDefault "min_relative_change" s.decimal? standard.minChange⟩

/-- The threshold that a JSON record gives. -/
def ofJson? : Json → Option Significance := read .strict

end Significance

/-! ### Outcomes -/

/-- What was learned from a logged correction. -/
inductive Lesson
  | updated (factor : Decimal) (samples : Nat) (tier : Tier)
  | /-- Nobody knows the rule of the quote. -/
    noRuleContext
  | /-- No rule has the item. -/
    notTunable
  | failed (error : String)
deriving DecidableEq, Repr

namespace Lesson

/-- What was learned, as JSON. -/
def toJson : Lesson → Json
  | updated factor samples tier =>
    .object (
      Json.member "status" (.string "updated") ++
      Json.member "factor" factor.toJson ++
      Json.member "sample_count" (Json.ofCount samples) ++
      Json.member "tier" tier.toJson)
  | noRuleContext => .object (Json.member "status" (.string "no_rule_context"))
  | notTunable => .object (Json.member "status" (.string "not_tunable"))
  | failed error =>
    .object (Json.member "status" (.string "failed") ++ Json.member "error" (.string error))

/-- The kinds of JSON records that say what was learned. -/
def kinds : Json.Kinds Lesson := [
  ("updated", do
    let factor ← Json.required "factor" Decimal.ofJson?
    let samples ← Json.required "sample_count" Json.count32?
    let tier ← Json.required "tier" fun j => (Json.innerName? j).bind Tier.ofName?
    return updated factor samples tier),
  ("no_rule_context", return noRuleContext),
  ("not_tunable", return notTunable),
  ("failed", do return failed (← Json.required "error" Json.text?))]

/-- What a JSON record says was learned. -/
def ofJson? : Json → Option Lesson := Json.tagged? "status" kinds

end Lesson

/-- What became of a correction. -/
inductive CorrectionOutcome
  | /-- The change was too small. -/
    ignored
  | logged (entry : EntryId) (tuning : Lesson)
deriving DecidableEq, Repr

namespace CorrectionOutcome

/-- An outcome as JSON. -/
def toJson : CorrectionOutcome → Json
  | ignored => .object (Json.member "outcome" (.string "ignored"))
  | logged entry tuning =>
    .object (
      Json.member "outcome" (.string "logged") ++
      Json.member "entry_id" entry.toJson ++
      Json.member "tuning" tuning.toJson)

/-- The kinds of JSON records that tell an outcome. -/
def kinds : Json.Kinds CorrectionOutcome := [
  ("ignored", return ignored),
  ("logged", do
    let entry ← Json.required "entry_id" EntryId.ofJson?
    let tuning ← Json.required "tuning" (Json.innerTagged? "status" Lesson.kinds)
    return logged entry tuning)]

/-- The outcome that a JSON record tells. -/
def ofJson? : Json → Option CorrectionOutcome := Json.tagged? "outcome" kinds

end CorrectionOutcome
end Estimating
