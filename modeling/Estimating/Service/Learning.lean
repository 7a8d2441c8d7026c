/-
Learning over stores that may fail.

* `Learning.record` — learns from one correction;
* `Learning.pattern`, `Learning.ofRule` — what has been learned for an item, and for a rule;
* `Learning.insights`, `Learning.summary` — the same as it is shown to people;
* `Learning.forget` — forgets what has been learned for an item.
-/
import Estimating.Learning.Insight
import Estimating.Learning.Recording
import Estimating.Service.World

set_option autoImplicit false

namespace Estimating.Learning

/-- An operation of learning. -/
abbrev Step (α : Type) := ExceptT LearningError (StateM World) α

/-- A call to a store whose failure ends the operation. -/
def ofStore {α : Type} (call : StateM World (Except StoreError α)) : Step α :=
  ExceptT.mk (Except.mapError .store <$> call)

/-- A result that may be too large for a decimal. -/
def ofDecimal {α : Type} : Option α → Step α
  | some a => return a
  | none => throw .overflow

/-- Learns from one correction. -/
def record (policy : Policy) (tenant : TenantId) (key : PatternKey) (old new : Decimal)
    (now : Timestamp) : Step Pattern := do
  let sample ← ofDecimal (policy.clamp (changeFactor old new))
  ExceptT.mk (Sampling.record World.readPattern World.writePattern
    ⟨tenant, key, sample, policy, now⟩)

/-- What has been learned for an item. -/
def pattern (tenant : TenantId) (key : PatternKey) : Step (Option Pattern) :=
  ofStore (World.readPattern tenant key)

/-- All that has been learned for a tenant. -/
def all (tenant : TenantId) : Step (List Pattern) :=
  ofStore (World.ask .patterns fun s => .ok (s.patterns.list tenant))

/-- What has been learned for a rule. -/
def ofRule (tenant : TenantId) (key : RuleKey) : Step (List Pattern) := do
  return (← all tenant).filter fun p => p.key.ruleKey == key

/-- All that has been learned for a tenant, as it is shown. -/
def insights (policy : Policy) (tenant : TenantId) : Step (List Insight) := do
  ofDecimal (Estimating.insights (← all tenant) policy)

/-- What has been learned for a rule, as it is shown. -/
def summary (policy : Policy) (tenant : TenantId) (key : RuleKey) : Step RuleSummary := do
  ofDecimal (RuleSummary.ofPatterns key (← ofRule tenant key) policy)

/-- Forgets what has been learned for an item; tells whether there was anything. -/
def forget (tenant : TenantId) (key : PatternKey) : Step Bool :=
  ofStore (World.change .patterns fun s =>
    let (patterns, existed) := s.patterns.delete tenant key
    ({ s with patterns }, existed))

end Estimating.Learning
