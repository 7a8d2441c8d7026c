/-
Learned patterns as they are shown to people.

* `describeFactor` — a factor in words;
* `Insight` — a pattern with its confidence and its factor in words;
* `insights` — the insights of patterns, those with most samples first and then by key;
* `RuleSummary` — the insights of one rule, and how many there are of each tier.

A factor whose distance from one is too large for a decimal has no words, so it has no insight.
-/
import Estimating.Learning.Pattern

set_option autoImplicit false

namespace Estimating

/-! ### Words -/

/-- Above this a factor raises a quantity. -/
def raiseAbove : Decimal := .tenths 11

/-- Below this a factor lowers a quantity. -/
def lowerBelow : Decimal := .tenths 9

/-- A fraction as a whole percentage, if it is a decimal. -/
def wholePercent (x : Decimal) : Option Decimal := (x.mul .hundred).map (·.roundTo 0)

/-- What a factor does to a quantity, in words. -/
def direction (factor : Decimal) : Option String :=
  if raiseAbove < factor then do
    let percent ← wholePercent (← factor.sub .one)
    return "raise this quantity by about " ++ percent.text ++ "%"
  else if factor < lowerBelow then do
    let percent ← wholePercent (← Decimal.one.sub factor)
    return "lower this quantity by about " ++ percent.text ++ "%"
  else some "keep this quantity within 10%"

/-- A factor in words. -/
def describeFactor (factor : Decimal) (tier : Tier) : Option String :=
  (direction factor).map fun d => "Users usually " ++ d ++ " (" ++ tier.name ++ " reliability)"

/-! ### Insights -/

/-- A pattern as it is shown. -/
structure Insight where
  key : PatternKey
  room : Room
  finish : Finish
  item : String
  factor : Decimal
  samples : Nat
  tier : Tier
  score : Decimal
  state : PatternStage
  interpretation : String
  updatedAt : Timestamp
deriving DecidableEq, Repr

namespace Insight

/-- The insight of a pattern. -/
def ofPattern (policy : Policy) (p : Pattern) : Option Insight :=
  let confidence := policy.confidence p.samples
  (describeFactor p.factor confidence.tier).map fun interpretation =>
    { key := p.key
      room := p.key.ruleKey.room
      finish := p.key.ruleKey.finish
      item := p.key.item
      factor := p.factor
      samples := p.samples
      tier := confidence.tier
      score := confidence.score
      state := .ofSamples p.samples policy.highSamples
      interpretation
      updatedAt := p.updatedAt }

/-- Whether one insight is shown before another, or in either order: it has more samples, or as many
and no larger key. -/
def precedes (a b : Insight) : Bool :=
  b.samples < a.samples || (a.samples == b.samples && (compare a.key b.key).isLE)

/-- An insight as JSON. -/
def toJson (i : Insight) : Json :=
  .object (
    Json.member "pattern_key" i.key.toJson ++
    Json.member "room_type" i.room.toJson ++
    Json.member "finish_level" i.finish.toJson ++
    Json.member "item_ref" (.string i.item) ++
    Json.member "factor" i.factor.toJson ++
    Json.member "sample_count" (Json.ofCount i.samples) ++
    Json.member "tier" i.tier.toJson ++
    Json.member "score" i.score.toJson ++
    Json.member "state" i.state.toJson ++
    Json.member "interpretation" (.string i.interpretation) ++
    Json.member "last_updated" i.updatedAt.toJson)

/-- The insight that a JSON record gives. -/
def ofJson? : Json → Option Insight := Json.record? do
  let key ← Json.required "pattern_key" PatternKey.ofJson?
  let room ← Json.required "room_type" Room.ofJson?
  let finish ← Json.required "finish_level" Finish.ofJson?
  let item ← Json.required "item_ref" Json.text?
  let factor ← Json.required "factor" Decimal.ofJson?
  let samples ← Json.required "sample_count" Json.count32?
  let tier ← Json.required "tier" Tier.ofJson?
  let score ← Json.required "score" Decimal.ofJson?
  let state ← Json.required "state" PatternStage.ofJson?
  let interpretation ← Json.required "interpretation" Json.text?
  let updatedAt ← Json.required "last_updated" Timestamp.ofJson?
  return {
    key, room, finish, item, factor, samples, tier, score, state, interpretation, updatedAt }

end Insight

/-- The insights of patterns, in the order in which they are shown. -/
def insights (patterns : List Pattern) (policy : Policy) : Option (List Insight) :=
  (patterns.mapM (Insight.ofPattern policy)).map fun is => is.mergeSort Insight.precedes

/-! ### Summaries -/

/-- The insights of one rule, and how many there are of each tier. -/
structure RuleSummary where
  key : RuleKey
  total : Nat
  high : Nat
  medium : Nat
  low : Nat
  items : List Insight
deriving DecidableEq, Repr

namespace RuleSummary

/-- The summary of insights. -/
def ofInsights (key : RuleKey) (items : List Insight) : RuleSummary :=
  let count (tier : Tier) := items.countP (·.tier == tier)
  ⟨key, items.length, count .high, count .medium, count .low, items⟩

/-- The summary of patterns. -/
def ofPatterns (key : RuleKey) (patterns : List Pattern) (policy : Policy) : Option RuleSummary :=
  (insights patterns policy).map (ofInsights key)

/-- A summary as JSON. -/
def toJson (s : RuleSummary) : Json :=
  .object (
    Json.member "rule_key" s.key.toJson ++
    Json.member "total_items" (Json.ofCount s.total) ++
    Json.member "high_confidence_items" (Json.ofCount s.high) ++
    Json.member "medium_confidence_items" (Json.ofCount s.medium) ++
    Json.member "low_confidence_items" (Json.ofCount s.low) ++
    Json.member "items" (Json.ofList Insight.toJson s.items))

/-- The summary that a JSON record gives. -/
def ofJson? : Json → Option RuleSummary := Json.record? do
  let key ← Json.required "rule_key" RuleKey.ofJson?
  let total ← Json.required "total_items" Json.count64?
  let high ← Json.required "high_confidence_items" Json.count64?
  let medium ← Json.required "medium_confidence_items" Json.count64?
  let low ← Json.required "low_confidence_items" Json.count64?
  let items ← Json.required "items" (Json.list? Insight.ofJson?)
  return ⟨key, total, high, medium, low, items⟩

end RuleSummary
end Estimating
