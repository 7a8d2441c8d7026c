/-
The operations of the service.

Generation looks up a rule, drafts a line for each of its entries, and tunes the lines by what has
been learned; if that cannot be read, the lines stay untuned.  A correction is logged first and
learned from afterwards, so that a failure to learn loses nothing.

* `Service.generate` — the report of a rule key under bindings;
* `Service.issueQuote` — the report of a quote, which is bound to its rule key;
* `Service.correct` — a correction by a user;
* `Service.putRule`, `Service.deleteRule`, `Service.listRules` — administration of rules;
* `Service.corrections`, `Service.insights`, `Service.ruleSummary` — views on the log and on what
  has been learned;
* `Service.forget` — forgets what has been learned for an item.
-/
import Estimating.Quote.Report
import Estimating.Service.Error

set_option autoImplicit false

namespace Estimating.Service

/-! ### Generation -/

/-- The rule of a key. -/
def findRule (tenant : TenantId) (key : RuleKey) : Action Rule := do
  match ← Action.ofStore (World.ask .rules fun s => .ok (s.rules.get tenant key)) with
  | some rule => return rule
  | none => throw (.ruleNotFound tenant key)

/-- What a catalog has for an entry of a rule. -/
def rowOf (c : Catalog) (tenant : TenantId) (profile : String) (e : Entry) : Option Row :=
  match e.kind with
  | .labor => (c.labor? tenant profile e.item).map .labor
  | .material => (c.material? tenant profile e.item).map .material
  | .custom => none

/-- The answer of the catalog for an entry of a rule. -/
def lookUp (tenant : TenantId) (profile : String) (e : Entry) : Action Lookup :=
  Action.attempt (World.ask .catalog fun s => .ok (rowOf s.catalog tenant profile e))

/-- The line of an entry before tuning. -/
def draft (config : Config) (tenant : TenantId) (bindings : Bindings) (profile : String)
    (e : Entry) : Action Draft := do
  let lookup ← lookUp tenant profile e
  Action.ofDecimal (Draft.ofEntry config.limits config.pricing bindings e lookup)

/-- The lines of a rule before tuning. -/
def draftAll (config : Config) (tenant : TenantId) (bindings : Bindings) (profile : String)
    (entries : List Entry) : Action (List Draft) :=
  entries.mapM (draft config tenant bindings profile)

/-- The description of a profile, if it can be read. -/
def describe (tenant : TenantId) (profile : String) : Action (Option PriceProfile) := do
  let answer ← Action.attempt
    (World.ask .catalog fun s => .ok (s.catalog.profile? tenant profile))
  return answer.toOption.join

/-- The report of a rule key under bindings. -/
def generate (config : Config) (tenant : TenantId) (key : RuleKey) (bindings : Bindings)
    (profile : String) : Action Report := do
  let rule ← findRule tenant key
  let drafts ← draftAll config tenant bindings profile rule.entries
  let described ← describe tenant profile
  let patterns ← Action.attempt (Learning.ofRule tenant key).run
  Action.ofDecimal
    (Report.ofDrafts config.pricing config.tuning tenant key profile drafts described
      patterns.toOption)

/-- The report of a quote.  If there is one, the quote is bound to its rule key. -/
def issueQuote (config : Config) (tenant : TenantId) (quote : QuoteId)
    (requirements : Requirements) (profile : String) : Action Report := do
  Action.refuse requirements.fault? .invalidInput
  let key := requirements.ruleKey
  let report ← generate config tenant key requirements.bindings profile
  Action.ofStore (World.change .quotes fun s =>
    ({ s with quotes := s.quotes.bind tenant quote key }, ()))
  return { report with quote := some quote }

/-! ### Corrections -/

/-- The log entry of a correction. -/
def logEntry (tenant : TenantId) (r : Correction) (id : EntryId) (now : Timestamp) :
    LogEntry where
  id := id
  tenant := tenant
  quote := r.quote
  item := r.item
  kind := r.kind
  oldQty := r.oldQty
  newQty := r.newQty
  oldUnitPrice := r.oldUnitPrice
  newUnitPrice := r.newUnitPrice
  reason := r.reason
  createdAt := now

/-- What is told of a recording.  A number that is too large ends the operation. -/
def lessonOf (policy : Policy) : Except LearningError Pattern → Action Lesson
  | .ok p => return .updated p.factor p.samples (policy.confidence p.samples).tier
  | .error .overflow => throw .overflow
  | .error e => return .failed e.message

/-- Learns from a correction under the rule of its quote. -/
def learnUnder (config : Config) (tenant : TenantId) (r : Correction) (key : RuleKey)
    (now : Timestamp) : Action Lesson :=
  match PatternKey.make key r.item with
  | .error e => return .failed e.message
  | .ok key => do
    let result ← Action.attempt
      (Learning.record config.tuning tenant key r.oldQty r.newQty now).run
    lessonOf config.tuning result

/-- Learns from a correction. -/
def learn (config : Config) (tenant : TenantId) (r : Correction) (now : Timestamp) :
    Action Lesson := do
  if r.kind = .custom then return .notTunable
  match ← Action.attempt (World.ask .quotes fun s => .ok (s.quotes.get tenant r.quote)) with
  | .error e => return .failed e.message
  | .ok none => return .noRuleContext
  | .ok (some key) => learnUnder config tenant r key now

/-- A correction by a user: it is logged and learned from, unless it is too small. -/
def correct (config : Config) (tenant : TenantId) (r : Correction) (id : EntryId)
    (now : Timestamp) : Action CorrectionOutcome := do
  Action.refuse r.fault? .invalidInput
  if config.significance.isSignificant r.oldQty r.newQty then
    Action.ofStore (World.change .log fun s =>
      ({ s with log := s.log.append (logEntry tenant r id now) }, ()))
    return .logged id (← learn config tenant r now)
  else return .ignored

/-- The corrections of a quote, the newest first. -/
def corrections (tenant : TenantId) (quote : QuoteId) : Action (List LogEntry) :=
  Action.ofStore (World.ask .log fun s => s.log.ofQuote tenant quote)

/-! ### What has been learned -/

/-- All that has been learned for a tenant, as it is shown. -/
def insights (config : Config) (tenant : TenantId) : Action (List Insight) :=
  Action.ofLearning (Learning.insights config.tuning tenant)

/-- What has been learned for a rule, as it is shown. -/
def ruleSummary (config : Config) (tenant : TenantId) (key : RuleKey) : Action RuleSummary :=
  Action.ofLearning (Learning.summary config.tuning tenant key)

/-- Forgets what has been learned for an item; tells whether there was anything. -/
def forget (tenant : TenantId) (key : PatternKey) : Action Bool :=
  Action.ofLearning (Learning.forget tenant key)

/-! ### Rules -/

/-- The first expression of a rule that does not compile. -/
def brokenPart? (limits : Expression.Limits) (r : Rule) : Option (Entry × Expression.Error) :=
  r.entries.findSome? fun e =>
    match Expression.compile e.expression limits with
    | .ok _ => none
    | .error error => some (e, error)

/-- Stores a rule, if it is well formed and all of its expressions compile. -/
def putRule (config : Config) (r : Rule) : Action Unit := do
  Action.refuse r.fault? .invalidRule
  Action.refuse (brokenPart? config.limits r) fun b => .invalidExpression b.1.kind b.1.item b.2
  Action.ofStore (World.change .rules fun s => ({ s with rules := s.rules.put r }, ()))

/-- Removes a rule; tells whether there was one. -/
def deleteRule (tenant : TenantId) (key : RuleKey) : Action Bool :=
  Action.ofStore (World.change .rules fun s =>
    let (rules, existed) := s.rules.delete tenant key
    ({ s with rules }, existed))

/-- The rules of a tenant, in the order of their keys. -/
def listRules (tenant : TenantId) : Action (List Rule) :=
  Action.ofStore (World.ask .rules fun s => .ok (s.rules.list tenant))

end Estimating.Service
