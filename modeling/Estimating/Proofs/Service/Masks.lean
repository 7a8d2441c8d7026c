/-
Entry ids and timestamps left aside.

Ids are made at random and times are read off a clock, so two runs are never alike in them.  A mask
says how they are seen; nothing else in what is stored or answered is touched by it, and nothing
else that the service works out depends on them.

* `Mask` — how ids and times are seen: as they are (`Mask.clear`), or all alike (`Mask.full`);
* `Mask.rule`, `Mask.pattern`, `Mask.entry`, `Mask.answer` — rules, patterns, log entries and
  answers behind a mask;
* `Mask.Twin` — operations that differ in ids and times alone;
* `Mask.next_pattern`, `Mask.insights_pattern`, `Mask.ofDrafts_pattern` — what is made of patterns
  behind a mask.
-/
import Estimating.Proofs.Service.Run

set_option autoImplicit false

namespace Estimating

/-- How entry ids and timestamps are seen. -/
structure Mask where
  id : EntryId → EntryId
  time : Timestamp → Timestamp

namespace Mask

/-- They are seen as they are. -/
def clear : Mask := ⟨fun i => i, fun t => t⟩

/-- All of them look alike. -/
def full : Mask := ⟨fun _ => default, fun _ => .epoch⟩

variable (m : Mask)

/-! ### What is seen behind a mask -/

def rule (r : Rule) : Rule :=
  { r with createdAt := m.time r.createdAt, updatedAt := m.time r.updatedAt }

def pattern (p : Pattern) : Pattern :=
  { p with createdAt := m.time p.createdAt, updatedAt := m.time p.updatedAt }

def entry (e : LogEntry) : LogEntry := { e with id := m.id e.id, createdAt := m.time e.createdAt }

def insight (i : Insight) : Insight := { i with updatedAt := m.time i.updatedAt }

def summary (s : RuleSummary) : RuleSummary := { s with items := s.items.map m.insight }

def outcome : CorrectionOutcome → CorrectionOutcome
  | .ignored => .ignored
  | .logged entry lesson => .logged (m.id entry) lesson

def answer : Answer → Answer
  | .report r => .report r
  | .outcome o => .outcome (m.outcome o)
  | .entries es => .entries (es.map m.entry)
  | .insights is => .insights (is.map m.insight)
  | .summary s => .summary (m.summary s)
  | .rules rs => .rules (rs.map m.rule)
  | .existed b => .existed b
  | .done => .done

/-- Operations that differ in ids and times alone. -/
inductive Twin : Operation → Operation → Prop
  | same (op : Operation) : Twin op op
  | correct (tenant : TenantId) (r : Correction) {id id' : EntryId} {now now' : Timestamp}
      (hid : m.id id = m.id id') (hnow : m.time now = m.time now') :
      Twin (.correct tenant r id now) (.correct tenant r id' now')
  | putRule {r r' : Rule} (hrule : m.rule r = m.rule r') : Twin (.putRule r) (.putRule r')

/-! ### What is made of it -/

theorem next_pattern (current : Option Pattern) (tenant : TenantId) (key : PatternKey)
    (sample : Decimal) (policy : Policy) (now : Timestamp) :
    Pattern.next (current.map m.pattern) tenant key sample policy (m.time now) =
      (Pattern.next current tenant key sample policy now).map m.pattern := by
  cases current with
  | none => rfl
  | some p =>
      simp only [Pattern.next, Pattern.extend, Option.map_some, pattern]
      cases Pattern.factorOf policy p.factor
        (Pattern.lastOf policy.windowSize (p.recent ++ [sample.roundFactor])) <;> rfl

theorem ofPattern_pattern (policy : Policy) (p : Pattern) :
    Insight.ofPattern policy (m.pattern p) = (Insight.ofPattern policy p).map m.insight := by
  rw [Insight.ofPattern, Insight.ofPattern, Option.map_map]
  rfl

theorem insights_pattern (patterns : List Pattern) (policy : Policy) :
    insights (patterns.map m.pattern) policy =
      (insights patterns policy).map (List.map m.insight) := by
  have hmap : (patterns.map m.pattern).mapM (Insight.ofPattern policy) =
      (patterns.mapM (Insight.ofPattern policy)).map (List.map m.insight) := by
    induction patterns with
    | nil => rfl
    | cons p ps ih =>
        rw [List.map_cons, List.mapM_cons, List.mapM_cons, ih, ofPattern_pattern]
        cases Insight.ofPattern policy p <;> cases ps.mapM (Insight.ofPattern policy) <;> rfl
  rw [insights, insights, hmap, Option.map_map, Option.map_map]
  refine congrArg (Option.map · _) (funext fun is => ?_)
  have hprecedes (a b : Insight) :
      a.precedes b = (m.insight a).precedes (m.insight b) := rfl
  exact (List.map_mergeSort fun a _ b _ => hprecedes a b).symm

theorem ofPatterns_pattern (key : RuleKey) (patterns : List Pattern) (policy : Policy) :
    RuleSummary.ofPatterns key (patterns.map m.pattern) policy =
      (RuleSummary.ofPatterns key patterns policy).map m.summary := by
  rw [RuleSummary.ofPatterns, RuleSummary.ofPatterns, insights_pattern, Option.map_map,
    Option.map_map]
  refine congrArg (Option.map · _) (funext fun is => ?_)
  simp only [Function.comp_apply, RuleSummary.ofInsights, summary, List.length_map, List.countP_map]
  rfl

/-- The patterns of a rule. -/
theorem filter_pattern (patterns : List Pattern) (key : RuleKey) :
    (patterns.map m.pattern).filter (·.key.ruleKey == key) =
      (patterns.filter (·.key.ruleKey == key)).map m.pattern :=
  List.filter_map

/-- A report does not depend on when its patterns were learned. -/
theorem ofDrafts_pattern (defaults : PriceDefaults) (policy : Policy) (tenant : TenantId)
    (key : RuleKey) (profile : String) (drafts : List Draft) (described : Option PriceProfile)
    (patterns : Option (List Pattern)) :
    Report.ofDrafts defaults policy tenant key profile drafts described
        (patterns.map (List.map m.pattern)) =
      Report.ofDrafts defaults policy tenant key profile drafts described patterns := by
  have hitem (i : Item) (p : Option Pattern) :
      i.tune (p.map m.pattern) policy = i.tune p policy := by
    cases p <;> rfl
  have htune (ps : List Pattern) : tuneAll drafts (ps.map m.pattern) policy =
      tuneAll drafts ps policy := by
    refine congrArg (drafts.mapM ·) (funext fun d => ?_)
    simp only [Draft.tune, patternFor, List.find?_map, hitem]
    rfl
  cases patterns with
  | none => rfl
  | some ps =>
      simp only [Report.ofDrafts, Option.map_some, Option.getD_some, htune]
      rfl

end Mask
end Estimating
