/-
What the service can fail with.

* `ServiceError` — the causes, `ServiceError.message` their wording;
* `Action` — an operation of the service.  It may fail, and what it has done to the stores by then
  stays done.
-/
import Estimating.Expression.Error
import Estimating.Project.Requirements
import Estimating.Service.Config
import Estimating.Service.Learning

set_option autoImplicit false

namespace Estimating

/-- Why an operation of the service fails. -/
inductive ServiceError
  | ruleNotFound (tenant : TenantId) (key : RuleKey)
  | invalidRule (fault : RuleFault)
  | invalidExpression (kind : ItemKind) (item : String) (cause : Expression.Error)
  | invalidInput (cause : InputError)
  | store (cause : StoreError)
  | learning (cause : LearningError)
  | config (fault : ConfigFault)
  | /-- The data to begin with cannot be read. -/
    invalidSeed
  | /-- A number is too large for a decimal. -/
    overflow
deriving DecidableEq, Repr

namespace ServiceError

/-- The wording of a service error. -/
def message : ServiceError → String
  | ruleNotFound tenant key =>
    "No generation rule '" ++ key.text ++ "' for tenant '" ++ tenant ++
      "'. Create it with put_rule using the roomType|finishLevel key format, e.g. '" ++ key.text ++
      "'"
  | invalidRule fault => "Invalid rule: Invalid rule: " ++ fault.message
  | invalidExpression kind item cause =>
    "Invalid expression for " ++ kind.name ++ " item '" ++ item ++ "': " ++ cause.message
  | invalidInput cause => "Invalid input: " ++ cause.message
  | store cause => "Store error: " ++ cause.message
  | learning cause => "Tuning error: " ++ cause.message
  | config fault => "Configuration error: " ++ fault.message
  | invalidSeed => "Invalid seed data"
  | overflow => "a number is too large"

/-- A learning error as an error of the service. -/
def ofLearning : LearningError → ServiceError
  | .overflow => .overflow
  | e => .learning e

end ServiceError

/-- An operation of the service. -/
abbrev Action (α : Type) := ExceptT ServiceError (StateM World) α

namespace Action

/-- A call to a store, with its error as a value. -/
def attempt {ε α : Type} (call : StateM World (Except ε α)) : Action (Except ε α) :=
  ExceptT.mk (Except.ok <$> call)

/-- A call to a store whose failure ends the operation. -/
def ofStore {α : Type} (call : StateM World (Except StoreError α)) : Action α :=
  ExceptT.mk (Except.mapError .store <$> call)

/-- A step of learning whose failure ends the operation. -/
def ofLearning {α : Type} (step : Learning.Step α) : Action α :=
  ExceptT.mk (Except.mapError .ofLearning <$> step.run)

/-- A result that may be too large for a decimal. -/
def ofDecimal {α : Type} : Option α → Action α
  | some a => return a
  | none => throw .overflow

/-- Ends the operation if something is wrong. -/
def refuse {φ : Type} (fault : Option φ) (error : φ → ServiceError) : Action Unit :=
  match fault with
  | some f => throw (error f)
  | none => return ()

end Action
end Estimating
