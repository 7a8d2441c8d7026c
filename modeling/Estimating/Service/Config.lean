/-
The configuration of the service.

* `Config` — limits on expressions, the learning policy, the threshold of corrections, fallbacks for
  prices, and logging;
* `Config.fault?` — what is wrong with a configuration, if anything;
* `Config.toJson`, `Config.ofJson?` — a configuration as JSON; whatever is absent has its standard
  value.
-/
import Estimating.Catalog.Defaults
import Estimating.Correction.Basic
import Estimating.Expression.Token
import Estimating.Learning.Policy

set_option autoImplicit false

namespace Estimating

/-! ### Sections -/

namespace Expression.Limits

/-- Limits as JSON. -/
def toJson (l : Limits) : Json :=
  .object (
    Json.member "max_expression_len" (Json.ofCount l.maxLength) ++
    Json.member "max_tokens" (Json.ofCount l.maxTokens) ++
    Json.member "max_literal" l.maxLiteral.toJson ++
    Json.member "max_result" l.maxResult.toJson)

/-- Reads limits out of a JSON record. -/
def read (s : Json.Reading) : Json → Option Limits := s.record? do
  let maxLength ← Json.withDefault "max_expression_len" s.count64? standard.maxLength
  let maxTokens ← Json.withDefault "max_tokens" s.count64? standard.maxTokens
  let maxLiteral ← Json.withDefault "max_literal" s.decimal? standard.maxLiteral
  let maxResult ← Json.withDefault "max_result" s.decimal? standard.maxResult
  return ⟨maxLength, maxTokens, maxLiteral, maxResult⟩

/-- The limits that a JSON record gives. -/
def ofJson? : Json → Option Limits := read .strict

end Expression.Limits

/-- How the program reports what it does. -/
structure Logging where
  level : String
  /-- Whether reports are JSON lines. -/
  json : Bool
deriving DecidableEq, Repr

namespace Logging

/-- The reports made unless others are asked for. -/
def standard : Logging := ⟨"info", false⟩

/-- The choice as JSON. -/
def toJson (l : Logging) : Json :=
  .object (Json.member "level" (.string l.level) ++ Json.member "json" (.bool l.json))

/-- Reads the choice out of a JSON record. -/
def read (s : Json.Reading) : Json → Option Logging := s.record? do
  let level ← Json.withDefault "level" s.text? standard.level
  let json ← Json.withDefault "json" s.flag? standard.json
  return ⟨level, json⟩

/-- The choice that a JSON record gives. -/
def ofJson? : Json → Option Logging := read .strict

end Logging

/-! ### The whole configuration -/

/-- The configuration of the service. -/
structure Config where
  limits : Expression.Limits
  tuning : Policy
  significance : Significance
  pricing : PriceDefaults
  logging : Logging
deriving DecidableEq, Repr

/-- What is wrong with a configuration. -/
inductive ConfigFault
  | policy (fault : PolicyFault)
  | expressionSize
  | expressionRange
  | threshold
  | vatRate
  | /-- A file or variable cannot be read. -/
    unreadable
  | /-- A setting stands at a place of a list that cannot be. -/
    outOfReach
deriving DecidableEq, Repr

/-- The wording of a configuration fault. -/
def ConfigFault.message : ConfigFault → String
  | policy fault => "Invalid tuning policy: " ++ fault.message
  | expressionSize => "limits.max_expression_len and limits.max_tokens must be positive"
  | expressionRange => "limits.max_result and limits.max_literal must be positive"
  | threshold => "adjustments.min_relative_change must not be negative"
  | vatRate => "pricing.default_vat_rate must not be negative"
  | unreadable => "a setting cannot be read"
  | outOfReach => "a setting is out of reach"

namespace Config

/-- The configuration in force unless another is set. -/
def standard : Config := ⟨.standard, .standard, .standard, .standard, .standard⟩

/-- What is wrong with a configuration, if anything. -/
def fault? (c : Config) : Option ConfigFault :=
  match c.tuning.fault? with
  | some fault => some (.policy fault)
  | none =>
    if c.limits.maxLength = 0 ∨ c.limits.maxTokens = 0 then some .expressionSize
    else if c.limits.maxResult ≤ .zero ∨ c.limits.maxLiteral ≤ .zero then some .expressionRange
    else if c.significance.minChange < .zero then some .threshold
    else if c.pricing.vatRate < .zero then some .vatRate
    else none

/-- A configuration as JSON. -/
def toJson (c : Config) : Json :=
  .object (
    Json.member "limits" c.limits.toJson ++
    Json.member "tuning" c.tuning.toJson ++
    Json.member "adjustments" c.significance.toJson ++
    Json.member "pricing" c.pricing.toJson ++
    Json.member "logging" c.logging.toJson)

/-- Reads a configuration out of a JSON record. -/
def read (s : Json.Reading) : Json → Option Config := s.record? do
  let limits ← Json.withDefault "limits" (Expression.Limits.read s) .standard
  let tuning ← Json.withDefault "tuning" (Policy.read s) .standard
  let significance ← Json.withDefault "adjustments" (Significance.read s) .standard
  let pricing ← Json.withDefault "pricing" (PriceDefaults.read s) .standard
  let logging ← Json.withDefault "logging" (Logging.read s) .standard
  return ⟨limits, tuning, significance, pricing, logging⟩

/-- The configuration that a JSON record gives. -/
def ofJson? : Json → Option Config := read .strict

end Config
end Estimating
