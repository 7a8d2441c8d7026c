/-
Reports where all stores work.

What generation answers is then a function of what the stores hold: there is no rule, or there is a
report of the rule, or a number on the way is too large for a decimal.  A report has one line for
each entry, and what is noted on a line is what has been learned for its own item.

* `Rule.report?` — the report of a rule, worked out from what the stores hold;
* `Service.generate_calm` — **what generation answers**, and `Service.exists_rule_of_generate`;
* `TuningNote.ofPattern` — what is noted on a line for which a pattern has been learned;
* `Entry.ShownBy` — what a line shows of its entry;
* `Rule.forall₂_shownBy` — **the lines of a report show its entries**, one after the other;
* `Rule.exists_entry_of_mem_failures` — what a report tells to have failed has failed for one of its
  entries.
-/
import Estimating.Proofs.Learning.Window
import Estimating.Proofs.Service.Lines

set_option autoImplicit false

namespace Estimating

/-! ### What generation answers -/

/-- What has been learned for a rule of a tenant. -/
def PatternStore.ofRule (store : PatternStore) (tenant : TenantId) (key : RuleKey) : List Pattern :=
  (store.list tenant).filter fun p => p.key.ruleKey == key

/-- The report of a rule, worked out from what the stores hold; `none` if a number is too large. -/
def Rule.report? (config : Config) (s : Stores) (tenant : TenantId) (key : RuleKey)
    (bindings : Bindings) (profile : String) (r : Rule) : Option Report := do
  let drafts ← r.drafts config.limits config.pricing bindings fun e =>
    .ok (Service.rowOf s.catalog tenant profile e)
  Report.ofDrafts config.pricing config.tuning tenant key profile drafts
    (s.catalog.profile? tenant profile) (some (s.patterns.ofRule tenant key))

namespace World

/-- A list of calls of which each has a result or ends with the same error. -/
theorem yields_mapM {ε α β : Type} {e : ε} {f : α → ExceptT ε (StateM World) β} {g : α → Option β}
    {s : Stores} (h : ∀ x, Yields (f x).run s ((g x).elim (.error e) .ok) s) :
    ∀ xs : List α, Yields (xs.mapM f).run s ((xs.mapM g).elim (.error e) .ok) s := by
  intro xs
  induction xs with
  | nil => exact yields_pure []
  | cons x xs ih =>
      have hx := h x
      rw [List.mapM_cons, List.mapM_cons]
      cases hg : g x with
      | none =>
          rw [hg] at hx
          exact hx.bind_error
      | some y =>
          rw [hg] at hx
          refine hx.bind ?_
          cases hgs : xs.mapM g with
          | none =>
              rw [hgs] at ih
              exact ih.bind_error
          | some ys =>
              rw [hgs] at ih
              exact ih.bind (yields_pure (y :: ys))

end World

namespace Service

open World

variable (config : Config) (tenant : TenantId) (key : RuleKey) (bindings : Bindings)
  (profile : String) (s : Stores)

theorem yields_findRule : Yields (findRule tenant key).run s
    ((s.rules.get tenant key).elim (.error (.ruleNotFound tenant key)) .ok) s := by
  have hask : Yields (Action.ofStore (World.ask .rules fun s =>
      .ok (s.rules.get tenant key))).run s (.ok (s.rules.get tenant key)) s :=
    Action.yields_ofStore (yields_ask _ _)
  refine hask.bind ?_
  cases s.rules.get tenant key with
  | none => exact yields_throw _
  | some rule => exact yields_pure rule

theorem yields_draft (e : Entry) : Yields (draft config tenant bindings profile e).run s
    ((Draft.ofEntry config.limits config.pricing bindings e
      (.ok (rowOf s.catalog tenant profile e))).elim (.error .overflow) .ok) s := by
  have hlookUp : Yields (lookUp tenant profile e).run s
      (.ok (.ok (rowOf s.catalog tenant profile e))) s := Action.yields_attempt (yields_ask _ _)
  exact hlookUp.bind (Action.yields_ofDecimal _ s)

theorem yields_describe : Yields (describe tenant profile).run s
    (.ok (s.catalog.profile? tenant profile)) s :=
  (Action.yields_attempt (yields_ask _ _)).bind (yields_pure _)

theorem yields_ofRule : Yields (Action.attempt (Learning.ofRule tenant key).run).run s
    (.ok (.ok (s.patterns.ofRule tenant key))) s :=
  Action.yields_attempt (Learning.yields_ofRule tenant key s)

/-- **What generation answers**: that there is no rule, or the report of the rule, or that a number
is too large. -/
theorem generate_calm : Yields (generate config tenant key bindings profile).run s
    ((s.rules.get tenant key).elim (.error (.ruleNotFound tenant key)) fun rule =>
      (rule.report? config s tenant key bindings profile).elim (.error .overflow) .ok) s := by
  have hfind := yields_findRule tenant key s
  cases hrule : s.rules.get tenant key with
  | none =>
      rw [hrule] at hfind
      exact hfind.bind_error
  | some rule =>
      rw [hrule] at hfind
      refine hfind.bind ?_
      have hdrafts := yields_mapM (yields_draft config tenant bindings profile s) rule.entries
      show Yields _ s ((rule.report? config s tenant key bindings profile).elim _ _) s
      rw [Rule.report?, Rule.drafts]
      cases hmap : rule.entries.mapM fun e => Draft.ofEntry config.limits config.pricing bindings e
          (.ok (rowOf s.catalog tenant profile e)) with
      | none =>
          rw [hmap] at hdrafts
          exact hdrafts.bind_error
      | some drafts =>
          rw [hmap] at hdrafts
          exact hdrafts.bind ((yields_describe tenant profile s).bind
            ((yields_ofRule tenant key s).bind (Action.yields_ofDecimal _ s)))

/-- A report that is generated is one of the rule stored. -/
theorem exists_rule_of_generate {config : Config} {tenant : TenantId} {key : RuleKey}
    {bindings : Bindings} {profile : String} {s s' : Stores} {report : Report}
    (h : Yields (generate config tenant key bindings profile).run s (.ok report) s') :
    ∃ rule, s.rules.get tenant key = some rule ∧
      rule.report? config s tenant key bindings profile = some report := by
  have h := congrArg Prod.fst ((generate_calm config tenant key bindings profile s).symm.trans h)
  cases hrule : s.rules.get tenant key with
  | none =>
      rw [hrule] at h
      cases h
  | some rule =>
      rw [hrule, Option.elim] at h
      refine ⟨rule, rfl, ?_⟩
      cases hmade : rule.report? config s tenant key bindings profile with
      | none =>
          rw [hmade] at h
          cases h
      | some made =>
          rw [hmade] at h
          cases h
          rfl

end Service

/-! ### What a line shows -/

/-- What is noted on a line for which a pattern has been learned, or none. -/
def TuningNote.ofPattern (policy : Policy) : Option Pattern → TuningNote
  | none => .untuned
  | some p =>
    if policy.minSamples ≤ p.samples then
      ⟨true, some (p.factor.clamp policy.minFactor policy.maxFactor),
        (policy.confidence p.samples).tier, p.samples⟩
    else ⟨false, some p.factor, .low, p.samples⟩

theorem TuningNote.ofPattern_of_enough {policy : Policy} {p : Pattern}
    (h : policy.minSamples ≤ p.samples) : ofPattern policy (some p) =
      ⟨true, some (p.factor.clamp policy.minFactor policy.maxFactor),
        (policy.confidence p.samples).tier, p.samples⟩ := if_pos h

theorem TuningNote.ofPattern_of_few {policy : Policy} {p : Pattern}
    (h : ¬ policy.minSamples ≤ p.samples) :
    ofPattern policy (some p) = ⟨false, some p.factor, .low, p.samples⟩ := if_neg h

theorem Item.note_of_multiply {i j : Item} {policy : Policy} {p : Pattern}
    (hpolicy : policy.Valid) (h : i.multiply p policy = some j) :
    j.baseQty = i.baseQty ∧ j.tuning =
      ⟨true, some (p.factor.clamp policy.minFactor policy.maxFactor),
        (policy.confidence p.samples).tier, p.samples⟩ := by
  obtain ⟨factor, hfactor, h⟩ := Option.bind_eq_some_iff.1 h
  obtain ⟨product, -, h⟩ := Option.bind_eq_some_iff.1 h
  obtain ⟨tuned, htuned, h⟩ := Option.bind_eq_some_iff.1 h
  rw [hpolicy.clamp_eq] at hfactor
  cases hfactor
  cases h
  exact ⟨(setQty_eq_some htuned).2.1, rfl⟩

/-- A tuned line keeps its value and notes what has been learned for it. -/
theorem Item.note_of_tune {i j : Item} {policy : Policy} {pattern : Option Pattern}
    (hpolicy : policy.Valid) (h : i.tune pattern policy = some j) :
    j.baseQty = i.baseQty ∧ j.tuning = .ofPattern policy pattern := by
  obtain ⟨plain, hplain, h⟩ := Option.bind_eq_some_iff.1 h
  obtain ⟨-, hbase, -⟩ := setQty_eq_some hplain
  cases pattern with
  | none =>
      cases h
      exact ⟨hbase, rfl⟩
  | some p =>
      simp only at h
      split at h
      · next henough =>
          obtain ⟨hbase', htuning⟩ := note_of_multiply hpolicy h
          exact ⟨hbase'.trans hbase, htuning.trans (TuningNote.ofPattern_of_enough henough).symm⟩
      · next hfew =>
          cases h
          exact ⟨hbase, (TuningNote.ofPattern_of_few hfew).symm⟩

/-- What a line shows of its entry, given what has been learned for the item.  Where the entry has
no value, nothing that has been learned is used. -/
structure Entry.ShownBy (config : Config) (bindings : Bindings) (e : Entry)
    (pattern : Option Pattern) (i : Item) : Prop where
  kind : i.kind = e.kind
  item : i.item = e.item
  baseQty : i.baseQty = (e.qty config.limits bindings).roundMoney
  tuning : i.tuning = .ofPattern config.tuning
    (if (e.value config.limits bindings).isOk then pattern else none)
  qty : config.tuning.reported i.baseQty
    (if (e.value config.limits bindings).isOk then pattern else none) = some i.qty

theorem Draft.Tells.shownBy_of_tune {config : Config} {bindings : Bindings} {e : Entry}
    {answer : Lookup} {d : Draft} {patterns : List Pattern} {i : Item}
    (hpolicy : config.tuning.Valid)
    (h : d.Tells config.limits config.pricing bindings e answer)
    (htune : d.tune patterns config.tuning = some i) :
    e.ShownBy config bindings (patternFor patterns e.item) i := by
  have hbase : d.item.baseQty.roundMoney = d.item.baseQty := by
    rw [h.baseQty]
    exact Decimal.roundTo_roundTo _ (by decide)
  unfold Draft.tune at htune
  cases hevaluated : d.evaluated with
  | false =>
      -- the line is left as it was drafted
      rw [hevaluated] at htune
      cases htune
      have hvalue : (e.value config.limits bindings).isOk = false := h.evaluated ▸ hevaluated
      refine ⟨h.kind, h.item, h.baseQty, ?_, ?_⟩
      · rw [hvalue]
        exact h.untuned
      · rw [hvalue, h.qty, h.baseQty]
        rfl
  | true =>
      rw [hevaluated, if_pos rfl] at htune
      have hvalue : (e.value config.limits bindings).isOk = true := h.evaluated ▸ hevaluated
      obtain ⟨hqty, hname⟩ := Item.tune_reports hbase htune
      obtain ⟨hkind, hitem⟩ := Prod.mk.inj hname
      obtain ⟨hbaseQty, htuning⟩ := Item.note_of_tune hpolicy htune
      refine ⟨hkind.trans h.kind, hitem.trans h.item, hbaseQty.trans h.baseQty, ?_, ?_⟩
      · rw [if_pos hvalue, ← h.item]
        exact htuning
      · rw [if_pos hvalue, ← h.item, hbaseQty]
        exact hqty

namespace Rule

variable {config : Config} {s : Stores} {tenant : TenantId} {key : RuleKey} {bindings : Bindings}
  {profile : String} {r : Rule} {report : Report}

/-- A report is made of the lines of its rule. -/
theorem exists_drafts_of_report?
    (h : r.report? config s tenant key bindings profile = some report) :
    ∃ drafts, r.drafts config.limits config.pricing bindings (fun e =>
        .ok (Service.rowOf s.catalog tenant profile e)) = some drafts ∧
      tuneAll drafts (s.patterns.ofRule tenant key) config.tuning = some report.items ∧
      report.failures = drafts.flatMap Draft.failures ∧
      report.tenant = tenant ∧ report.key = key ∧ report.profile = profile ∧
      report.tuningAvailable = true := by
  obtain ⟨drafts, hdrafts, h⟩ := Option.bind_eq_some_iff.1 h
  obtain ⟨items, hitems, h⟩ := Option.bind_eq_some_iff.1 h
  obtain ⟨totals, -, h⟩ := Option.bind_eq_some_iff.1 h
  cases h
  exact ⟨drafts, hdrafts, hitems, rfl, rfl, rfl, rfl, rfl⟩

/-- **The lines of a report show its entries**, one after the other. -/
theorem forall₂_shownBy (hpolicy : config.tuning.Valid)
    (h : r.report? config s tenant key bindings profile = some report) :
    List.Forall₂ (fun e i => e.ShownBy config bindings
      (patternFor (s.patterns.ofRule tenant key) e.item) i) r.entries report.items := by
  obtain ⟨drafts, hdrafts, hitems, -⟩ := exists_drafts_of_report? h
  have htells := forall₂_tells hdrafts
  have htunes := mapM_eq_some_iff.1 hitems
  clear hdrafts hitems h
  generalize r.entries = es, report.items = is at htells htunes
  induction htells generalizing is with
  | nil =>
      cases htunes
      exact .nil
  | cons htell _ ih =>
      cases htunes with
      | cons htune htunes => exact .cons (htell.shownBy_of_tune hpolicy htune) (ih _ htunes)

/-- What a report tells to have failed has failed for one of its entries. -/
theorem exists_entry_of_mem_failures
    (h : r.report? config s tenant key bindings profile = some report) {f : Failure}
    (hf : f ∈ report.failures) :
    ∃ e ∈ r.entries, f ∈ e.failures (e.value config.limits bindings)
      (.ok (Service.rowOf s.catalog tenant profile e)) := by
  obtain ⟨drafts, hdrafts, -, hfailures, -⟩ := exists_drafts_of_report? h
  rw [hfailures, flatMap_failures hdrafts] at hf
  exact List.mem_flatMap.1 hf

end Rule
end Estimating
