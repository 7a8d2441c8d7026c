/-
Tenants do not notice each other.

An operation belongs to one tenant.  It answers by what the stores hold for this tenant, and it
changes nothing that they hold for another one; so what all the others do could as well be left out.

* `Learning.confined_record`, `Service.confined_generate` and others — the parts of an operation
  keep to its tenant;
* `Operation.confined` — **every operation keeps to its tenant**;
* `Service.alike_foldl` — so what is seen of a run does not depend on the operations of others;
* `Service.tenants_run` — **a run without the operations of the others**.
-/
import Estimating.Proofs.Service.Confinement

set_option autoImplicit false

namespace Estimating

/-! ### Learning -/

namespace Learning

open World

variable {m : Mask} {tenant : TenantId}

/-- Results that are the same behind a mask. -/
theorem confined_ofDecimal {α β : Type} {f : α → β} {x x' : Option α}
    (h : x.map f = x'.map f) :
    Confined m tenant (Matches fun y y' => f y = f y') (ofDecimal x).run (ofDecimal x').run := by
  cases x <;> cases x'
  · exact confined_throw _
  · cases h
  · cases h
  · exact confined_pure (Option.some.inj h)

theorem confined_ofStore {α : Type} {R : α → α → Prop}
    {call call' : StateM World (Except StoreError α)}
    (h : Confined m tenant (Matches R) call call') :
    Confined m tenant (Matches R) (ofStore call).run (ofStore call').run :=
  h.map fun _ _ hx => hx.mapError _

theorem confined_all :
    Confined m tenant (Matches fun ps ps' => ps.map m.pattern = ps'.map m.pattern)
      (all tenant).run (all tenant).run :=
  confined_ofStore (confined_ask .patterns fun _ _ h => .ok h.map_patterns)

theorem confined_ofRule (key : RuleKey) :
    Confined m tenant (Matches fun ps ps' => ps.map m.pattern = ps'.map m.pattern)
      (ofRule tenant key).run (ofRule tenant key).run := by
  refine confined_all.bind fun ps ps' hps => confined_pure ?_
  rw [← Mask.filter_pattern, hps, Mask.filter_pattern]

theorem confined_insights (policy : Policy) :
    Confined m tenant (Matches fun is is' => is.map m.insight = is'.map m.insight)
      (insights policy tenant).run (insights policy tenant).run := by
  refine confined_all.bind fun ps ps' hps => confined_ofDecimal ?_
  rw [← Mask.insights_pattern, hps, Mask.insights_pattern]

theorem confined_summary (policy : Policy) (key : RuleKey) :
    Confined m tenant (Matches fun s s' => m.summary s = m.summary s')
      (summary policy tenant key).run (summary policy tenant key).run := by
  refine (confined_ofRule key).bind fun ps ps' hps => confined_ofDecimal ?_
  rw [← Mask.ofPatterns_pattern, hps, Mask.ofPatterns_pattern]

/-- A pattern has been stored for a tenant. -/
theorem alike_put {s s' : Stores} {next next' : Pattern} (h : Alike m tenant s s')
    (hplace : next.tenant = tenant) (hnext : m.pattern next = m.pattern next') :
    Alike m tenant { s with patterns := s.patterns.put next }
      { s' with patterns := s'.patterns.put next' } where
  rules := h.rules
  shelves := h.shelves
  quotes := h.quotes
  log := h.log
  patterns key := by
    have hplaces : next.place = next'.place := (congrArg Pattern.place hnext :)
    have hversion : s.patterns.versionAt next.tenant next.key =
        s'.patterns.versionAt next'.tenant next'.key := by
      obtain ⟨htenant, hkey⟩ := Owned.mk.inj hplaces
      rw [← htenant, ← hkey, hplace]
      exact h.versionAt_eq next.key
    show ((s.patterns.put next).get tenant key).map m.pattern =
      ((s'.patterns.put next').get tenant key).map m.pattern
    rw [PatternStore.put, PatternStore.put, PatternStore.get_insert_versioned,
      PatternStore.get_insert_versioned, ← hplaces, hversion]
    split
    · exact congrArg (some <| Pattern.versioned _ ·) hnext
    · exact h.patterns key
  placed := h.placed.insert _ _
  placed' := h.placed'.insert _ _

theorem leaves_put {s : Stores} {next : Pattern} :
    Leaves next.tenant s { s with patterns := s.patterns.put next } := by
  intro m other u hne h
  refine { h with patterns := fun key => ?_, placed := h.placed.insert _ _ }
  have hplace : next.place ≠ ⟨other, key⟩ := fun heq => hne (congrArg Owned.tenant heq).symm
  show (PatternStore.get (s.patterns.put next) other key).map m.pattern = _
  rw [PatternStore.put, PatternStore.get_insert_versioned, if_neg hplace]
  exact h.patterns key

/-- A recording, whatever the clock shows. -/
theorem confined_recordFrom {q : Sampling} {now' : Timestamp} (hnow : m.time q.now = m.time now')
    (attempts : Nat) :
    Confined m q.tenant (Matches fun p p' => m.pattern p = m.pattern p')
      (Sampling.recordFrom readPattern writePattern q attempts)
      (Sampling.recordFrom readPattern writePattern { q with now := now' } attempts) := by
  cases attempts with
  | zero => exact confined_return (.error q.giveUp)
  | succ n =>
      intro s s' halike
      have hobserve : (q.observe (s.patterns.get q.tenant q.key)).map m.pattern =
          (Sampling.observe { q with now := now' } (s'.patterns.get q.tenant q.key)).map
            m.pattern := by
        rw [Sampling.observe, Sampling.observe, ← Mask.next_pattern, ← Mask.next_pattern,
          halike.patterns, hnow]
      cases hnext : q.observe (s.patterns.get q.tenant q.key) with
      | none =>
          rw [hnext, Option.map_none, eq_comm, Option.map_eq_none_iff] at hobserve
          exact ⟨_, _, _, _, Sampling.recordFrom_calm_of_observe_eq_none hnext n,
            Sampling.recordFrom_calm_of_observe_eq_none hobserve n, .error _, halike,
            leaves_refl _ _⟩
      | some next =>
          rw [hnext, Option.map_some, eq_comm, Option.map_eq_some_iff] at hobserve
          obtain ⟨next', hnext', hmask⟩ := hobserve
          have htenant : next.tenant = q.tenant :=
            congrArg Owned.tenant (halike.placed.observe hnext)
          refine ⟨_, _, _, _, Sampling.recordFrom_calm_of_observe_eq_some halike.placed hnext n,
            Sampling.recordFrom_calm_of_observe_eq_some halike.placed' hnext' n, .ok ?_,
            alike_put halike htenant hmask.symm, htenant ▸ leaves_put⟩
          rw [halike.versionAt_eq]
          exact congrArg (Pattern.versioned _) hmask.symm

theorem confined_record (policy : Policy) (key : PatternKey) (old new : Decimal)
    {now now' : Timestamp} (hnow : m.time now = m.time now') :
    Confined m tenant (Matches fun p p' => m.pattern p = m.pattern p')
      (record policy tenant key old new now).run (record policy tenant key old new now').run := by
  refine (confined_ofDecimal (f := fun x => x) rfl).bind fun sample sample' hsample => ?_
  cases hsample
  exact confined_recordFrom (q := ⟨tenant, key, sample, policy, now⟩) hnow policy.maxAttempts

end Learning

/-! ### Operations -/

namespace Service

open World

variable {m : Mask} {tenant : TenantId} (config : Config)

theorem confined_findRule (key : RuleKey) :
    Confined m tenant (Matches fun r r' => m.rule r = m.rule r') (findRule tenant key).run
      (findRule tenant key).run := by
  have hask : Confined m tenant (Matches fun r r' => r.map m.rule = r'.map m.rule)
      (ask .rules fun s => .ok (s.rules.get tenant key))
      (ask .rules fun s => .ok (s.rules.get tenant key)) :=
    confined_ask .rules fun s s' h => .ok (h.rules key)
  refine (Action.confined_ofStore hask).bind fun rule rule' hrule => ?_
  cases rule <;> cases rule'
  · exact confined_throw _
  · cases hrule
  · cases hrule
  · exact confined_pure (Option.some.inj hrule)

theorem confined_draft (bindings : Bindings) (profile : String) (e : Entry) :
    Confined m tenant (Matches Eq) (draft config tenant bindings profile e).run
      (draft config tenant bindings profile e).run := by
  have hask : Confined m tenant (Matches Eq)
      (ask .catalog fun s => .ok (rowOf s.catalog tenant profile e))
      (ask .catalog fun s => .ok (rowOf s.catalog tenant profile e)) := by
    refine confined_ask_eq .catalog fun s s' h => ?_
    unfold rowOf Catalog.labor? Catalog.material?
    rw [h.shelves]
  refine (Action.confined_attempt hask).bind fun lookup lookup' hlookup => ?_
  rw [hlookup.eq]
  exact Action.confined_ofDecimal _

theorem confined_describe (profile : String) :
    Confined m tenant (Matches Eq) (describe tenant profile).run (describe tenant profile).run := by
  have hask : Confined m tenant (Matches Eq)
      (ask .catalog fun s => .ok (s.catalog.profile? tenant profile))
      (ask .catalog fun s => .ok (s.catalog.profile? tenant profile)) := by
    refine confined_ask_eq .catalog fun s s' h => ?_
    rw [Catalog.profile?, Catalog.profile?, h.shelves]
  refine (Action.confined_attempt hask).bind fun answer answer' hanswer => ?_
  rw [hanswer.eq]
  exact confined_pure rfl

theorem confined_generate (key : RuleKey) (bindings : Bindings) (profile : String) :
    Confined m tenant (Matches Eq) (generate config tenant key bindings profile).run
      (generate config tenant key bindings profile).run := by
  refine (confined_findRule key).bind fun rule rule' hrule => ?_
  have hentries : rule.entries = rule'.entries := (congrArg Rule.entries hrule :)
  rw [hentries]
  refine (Confined.mapM (confined_draft config bindings profile) rule'.entries).bind
    fun drafts drafts' hdrafts => ?_
  refine (confined_describe profile).bind fun described described' hdescribed => ?_
  refine (Action.confined_attempt (Learning.confined_ofRule key)).bind
    fun patterns patterns' hpatterns => ?_
  have hmasked : patterns.toOption.map (List.map m.pattern) =
      patterns'.toOption.map (List.map m.pattern) := by
    cases hpatterns with
    | ok h => exact congrArg some h
    | error e => rfl
  rw [hdrafts, hdescribed, ← Mask.ofDrafts_pattern, hmasked, Mask.ofDrafts_pattern]
  exact Action.confined_ofDecimal _

theorem confined_issueQuote (quote : QuoteId) (requirements : Requirements) (profile : String) :
    Confined m tenant (Matches Eq) (issueQuote config tenant quote requirements profile).run
      (issueQuote config tenant quote requirements profile).run := by
  refine (Action.confined_refuse _ _).bind fun _ _ _ => ?_
  refine (confined_generate config _ _ _).bind fun report report' hreport => ?_
  have hbind : Confined m tenant (Matches Eq)
      (change .quotes fun s =>
        ({ s with quotes := s.quotes.bind tenant quote requirements.ruleKey }, ()))
      (change .quotes fun s =>
        ({ s with quotes := s.quotes.bind tenant quote requirements.ruleKey }, ())) := by
    refine confined_change .quotes fun s s' h => ⟨rfl, { h with quotes := fun quote' => ?_ }, ?_⟩
    · rw [QuoteStore.get_bind, QuoteStore.get_bind, h.quotes]
    · intro m' other u hne hu
      refine { hu with quotes := fun quote' => ?_ }
      rw [QuoteStore.get_bind, if_neg fun heq => hne heq.1.symm]
      exact hu.quotes quote'
  refine (Action.confined_ofStore hbind).bind fun _ _ _ => confined_pure ?_
  rw [hreport]

/-! ### Corrections -/

/-- An entry has been logged for a tenant. -/
theorem confined_append {e e' : LogEntry} (htenant : e.tenant = tenant)
    (hentry : m.entry e = m.entry e') :
    Confined m tenant (Matches Eq)
      (change .log fun s => ({ s with log := s.log.append e }, ()))
      (change .log fun s => ({ s with log := s.log.append e' }, ())) := by
  refine confined_change .log fun s s' h => ⟨rfl, ?_, ?_⟩
  · obtain ⟨es, es', hes, hes', heq⟩ := h.log
    have htenant' : e'.tenant = tenant := (congrArg LogEntry.tenant hentry :).symm.trans htenant
    refine { h with log := ⟨es ++ [e], es' ++ [e'], ?_, ?_, ?_⟩ }
    · rw [hes, Log.append]
    · rw [hes', Log.append]
    · simp [heq, htenant, htenant', hentry]
  · intro m' other u hne hu
    obtain ⟨es, es', hes, hes', heq⟩ := hu.log
    have hother : e.tenant ≠ other := fun h => hne (h.symm.trans htenant)
    refine { hu with log := ⟨es ++ [e], es', ?_, hes', ?_⟩ }
    · rw [hes, Log.append]
    · simp [heq, hother]

theorem confined_learnUnder (r : Correction) (key : RuleKey) {now now' : Timestamp}
    (hnow : m.time now = m.time now') :
    Confined m tenant (Matches Eq) (learnUnder config tenant r key now).run
      (learnUnder config tenant r key now').run := by
  unfold learnUnder
  cases PatternKey.make key r.item with
  | error e => exact confined_pure rfl
  | ok key =>
      refine (Action.confined_attempt (Learning.confined_record config.tuning key r.oldQty
        r.newQty hnow)).bind fun result result' hresult => ?_
      cases hresult with
      | error e =>
          cases e with
          | overflow => exact confined_throw _
          | store cause => exact confined_pure rfl
          | contention key n => exact confined_pure rfl
      | @ok p p' h =>
          have hfactor : p.factor = p'.factor := (congrArg Pattern.factor h :)
          have hsamples : p.samples = p'.samples := (congrArg Pattern.samples h :)
          refine confined_pure ?_
          rw [hfactor, hsamples]

theorem confined_learn (r : Correction) {now now' : Timestamp} (hnow : m.time now = m.time now') :
    Confined m tenant (Matches Eq) (learn config tenant r now).run
      (learn config tenant r now').run := by
  unfold learn
  by_cases hkind : r.kind = .custom
  · rw [if_pos hkind, if_pos hkind]
    exact confined_pure rfl
  · rw [if_neg hkind, if_neg hkind]
    have hask : Confined m tenant (Matches Eq)
        (ask .quotes fun s => .ok (s.quotes.get tenant r.quote))
        (ask .quotes fun s => .ok (s.quotes.get tenant r.quote)) :=
      confined_ask_eq .quotes fun s s' h => by rw [h.quotes]
    refine (Action.confined_attempt hask).bind fun bound bound' hbound => ?_
    rw [← hbound.eq]
    match bound with
    | .error e => exact confined_pure rfl
    | .ok none => exact confined_pure rfl
    | .ok (some key) => exact confined_learnUnder config r key hnow

theorem confined_correct (r : Correction) {id id' : EntryId} {now now' : Timestamp}
    (hid : m.id id = m.id id') (hnow : m.time now = m.time now') :
    Confined m tenant (Matches fun o o' => m.outcome o = m.outcome o')
      (correct config tenant r id now).run (correct config tenant r id' now').run := by
  refine (Action.confined_refuse _ _).bind fun _ _ _ => ?_
  by_cases hsignificant : config.significance.isSignificant r.oldQty r.newQty
  · rw [if_pos hsignificant, if_pos hsignificant]
    have hentry : m.entry (logEntry tenant r id now) = m.entry (logEntry tenant r id' now') := by
      simp only [Mask.entry, logEntry, hid, hnow]
    refine (Action.confined_ofStore (confined_append rfl hentry)).bind fun _ _ _ => ?_
    refine (confined_learn config r hnow).bind fun lesson lesson' hlesson => confined_pure ?_
    rw [hlesson]
    exact congrArg (CorrectionOutcome.logged · lesson') hid
  · rw [if_neg hsignificant, if_neg hsignificant]
    exact confined_pure rfl

theorem confined_corrections (quote : QuoteId) :
    Confined m tenant (Matches fun es es' => es.map m.entry = es'.map m.entry)
      (corrections tenant quote).run (corrections tenant quote).run := by
  refine Action.confined_ofStore (confined_ask .log fun s s' h => ?_)
  obtain ⟨es, es', hes, hes', heq⟩ := h.log
  -- the entries of a quote are among those of its tenant
  have hquote (es : List LogEntry) : (es.filter (·.isOf tenant quote)).map m.entry =
      (((es.filter (·.tenant == tenant)).map m.entry).filter (·.quote == quote)) := by
    rw [List.filter_map, List.filter_filter]
    refine congrArg _ (List.filter_congr fun e _ => ?_)
    exact Bool.and_comm _ _
  rw [hes, hes']
  refine .ok ?_
  rw [List.map_reverse, List.map_reverse, hquote, hquote, heq]

theorem confined_forget (key : PatternKey) :
    Confined m tenant (Matches Eq) (forget tenant key).run (forget tenant key).run := by
  have hdelete : Confined m tenant (Matches Eq)
      (change .patterns fun s => ({ s with patterns := (s.patterns.delete tenant key).1 },
        (s.patterns.delete tenant key).2))
      (change .patterns fun s => ({ s with patterns := (s.patterns.delete tenant key).1 },
        (s.patterns.delete tenant key).2)) := by
    refine confined_change .patterns fun s s' h => ⟨?_, ?_, ?_⟩
    · exact Owned.contains_eq (h.patterns key)
    · refine { h with
        patterns := fun key' => ?_
        placed := h.placed.delete tenant key
        placed' := h.placed'.delete tenant key }
      rw [PatternStore.get_delete, PatternStore.get_delete]
      split
      · rfl
      · exact h.patterns key'
    · intro m' other u hne hu
      refine { hu with patterns := fun key' => ?_, placed := hu.placed.delete tenant key }
      rw [PatternStore.get_delete, if_neg fun heq => hne heq.1.symm]
      exact hu.patterns key'
  exact Action.confined_ofLearning (Learning.confined_ofStore hdelete)

/-! ### Rules and prices -/

/-- A rule that replaces another one keeps what is seen of its creation. -/
theorem rule_succeed {s s' : Stores} {r r' : Rule} (h : Alike m r.tenant s s')
    (hr : m.rule r = m.rule r') : m.rule (s.rules.succeed r) = m.rule (s'.rules.succeed r') := by
  have hplace : r.place = r'.place := (congrArg Rule.place hr :)
  obtain ⟨htenant, hkey⟩ := Owned.mk.inj hplace
  have hold : (s.rules.get r.tenant r.key).map m.rule =
      (s'.rules.get r'.tenant r'.key).map m.rule := by
    rw [← htenant, ← hkey]
    exact h.rules r.key
  unfold RuleStore.succeed
  cases hget : s.rules.get r.tenant r.key <;> cases hget' : s'.rules.get r'.tenant r'.key <;>
    rw [hget, hget'] at hold
  · exact hr
  · cases hold
  · cases hold
  · exact congrArg₂ (fun (q old : Rule) => { q with createdAt := old.createdAt }) hr
      (Option.some.inj hold)

theorem confined_putRule {r r' : Rule} (hr : m.rule r = m.rule r') :
    Confined m r.tenant (Matches Eq) (putRule config r).run (putRule config r').run := by
  have hplace : r.place = r'.place := (congrArg Rule.place hr :)
  have hfault : r.fault? = r'.fault? := (congrArg Rule.fault? hr :)
  have hbroken : brokenPart? config.limits r = brokenPart? config.limits r' :=
    (congrArg (brokenPart? config.limits) hr :)
  have hput : Confined m r.tenant (Matches Eq)
      (change .rules fun s => ({ s with rules := s.rules.put r }, ()))
      (change .rules fun s => ({ s with rules := s.rules.put r' }, ())) := by
    refine confined_change .rules fun s s' h => ⟨rfl, { h with rules := fun key => ?_ }, ?_⟩
    · obtain ⟨htenant, hkey⟩ := Owned.mk.inj hplace
      rw [RuleStore.get_put, RuleStore.get_put, ← htenant, ← hkey]
      split
      · exact congrArg some (rule_succeed h hr)
      · exact h.rules key
    · intro m' other u hne hu
      refine { hu with rules := fun key => ?_ }
      rw [RuleStore.get_put, if_neg fun heq => hne heq.1.symm]
      exact hu.rules key
  unfold putRule
  rw [← hfault, ← hbroken]
  exact (Action.confined_refuse _ _).bind fun _ _ _ =>
    (Action.confined_refuse _ _).bind fun _ _ _ => Action.confined_ofStore hput

theorem confined_deleteRule (key : RuleKey) :
    Confined m tenant (Matches Eq) (deleteRule tenant key).run (deleteRule tenant key).run := by
  refine Action.confined_ofStore (confined_change .rules fun s s' h => ⟨?_, ?_, ?_⟩)
  · exact Owned.contains_eq (h.rules key)
  · refine { h with rules := fun key' => ?_ }
    show ((s.rules.delete _ _).1.get _ _).map _ = ((s'.rules.delete _ _).1.get _ _).map _
    rw [RuleStore.get_delete, RuleStore.get_delete]
    split
    · rfl
    · exact h.rules key'
  · intro m' other u hne hu
    refine { hu with rules := fun key' => ?_ }
    show ((s.rules.delete _ _).1.get _ _).map _ = _
    rw [RuleStore.get_delete, if_neg fun heq => hne heq.1.symm]
    exact hu.rules key'

theorem confined_listRules :
    Confined m tenant (Matches fun rs rs' => rs.map m.rule = rs'.map m.rule) (listRules tenant).run
      (listRules tenant).run :=
  Action.confined_ofStore (confined_ask .rules fun _ _ h => .ok h.map_rules)

/-- A change of a shelf. -/
theorem confined_stock (profile : String) (f : Shelf → Shelf) :
    Confined m tenant (Matches Eq)
      (stock fun c => c.insert ⟨tenant, profile⟩ (f (c.shelf tenant profile))).run
      (stock fun c => c.insert ⟨tenant, profile⟩ (f (c.shelf tenant profile))).run := by
  refine Action.confined_ofStore (confined_change .catalog fun s s' h =>
    ⟨rfl, { h with shelves := fun profile' => ?_ }, ?_⟩)
  · rw [Catalog.shelf_insert, Catalog.shelf_insert, h.shelves, h.shelves]
  · intro m' other u hne hu
    refine { hu with shelves := fun profile' => ?_ }
    rw [Catalog.shelf_insert, if_neg fun heq => hne (congrArg Owned.tenant heq).symm]
    exact hu.shelves profile'

end Service

namespace Operation

open World Service

variable {m : Mask} {config : Config}

/-- Whose operation it is. -/
def tenant : Operation → TenantId
  | generate tenant .. => tenant
  | issueQuote tenant .. => tenant
  | correct tenant .. => tenant
  | corrections tenant _ => tenant
  | insights tenant => tenant
  | ruleSummary tenant _ => tenant
  | forget tenant _ => tenant
  | putRule r => r.tenant
  | deleteRule tenant _ => tenant
  | listRules tenant => tenant
  | putProfile tenant _ => tenant
  | putLabor tenant .. => tenant
  | putMaterial tenant .. => tenant

theorem confined_answer {α : Type} {tenant : TenantId} {R : α → α → Prop} {a a' : Action α}
    {g : α → Answer} (h : Confined m tenant (Matches R) a.run a'.run)
    (hg : ∀ x x', R x x' → m.answer (g x) = m.answer (g x')) :
    Confined m tenant (Matches fun y y' => m.answer y = m.answer y') (g <$> a).run
      (g <$> a').run := by
  rw [ExceptT.run_map, ExceptT.run_map]
  refine h.map fun x x' hx => ?_
  cases hx with
  | ok hR => exact .ok (hg _ _ hR)
  | error e => exact .error e

/-- **Every operation keeps to its tenant.** -/
theorem confined {op op' : Operation} (h : m.Twin op op') :
    Confined m op.tenant (Matches fun y y' => m.answer y = m.answer y') (op.perform config).run
      (op'.perform config).run := by
  cases h with
  | correct tenant r hid hnow =>
      exact confined_answer (confined_correct config r hid hnow) fun _ _ => congrArg Answer.outcome
  | putRule hrule => exact confined_answer (confined_putRule config hrule) fun _ _ _ => rfl
  | same op =>
      cases op with
      | generate tenant key bindings profile =>
          exact confined_answer (confined_generate config key bindings profile)
            fun _ _ => congrArg Answer.report
      | issueQuote tenant quote requirements profile =>
          exact confined_answer (confined_issueQuote config quote requirements profile)
            fun _ _ => congrArg Answer.report
      | correct tenant r id now =>
          exact confined_answer (confined_correct config r rfl rfl)
            fun _ _ => congrArg Answer.outcome
      | corrections tenant quote =>
          exact confined_answer (confined_corrections quote) fun _ _ => congrArg Answer.entries
      | insights tenant =>
          exact confined_answer
            (Action.confined_ofLearning (Learning.confined_insights config.tuning))
            fun _ _ => congrArg Answer.insights
      | ruleSummary tenant key =>
          exact confined_answer
            (Action.confined_ofLearning (Learning.confined_summary config.tuning key))
            fun _ _ => congrArg Answer.summary
      | forget tenant key =>
          exact confined_answer (confined_forget key) fun _ _ => congrArg _
      | putRule r => exact confined_answer (confined_putRule config rfl) fun _ _ _ => rfl
      | deleteRule tenant key =>
          exact confined_answer (confined_deleteRule key) fun _ _ => congrArg _
      | listRules tenant =>
          exact confined_answer confined_listRules fun _ _ => congrArg Answer.rules
      | putProfile tenant p =>
          exact confined_answer (confined_stock p.id fun s => { s with profile := some p })
            fun _ _ _ => rfl
      | putLabor tenant profile r =>
          exact confined_answer
            (confined_stock profile fun s => { s with labor := s.labor.insert r.code r })
            fun _ _ _ => rfl
      | putMaterial tenant profile a =>
          exact confined_answer
            (confined_stock profile fun s => { s with materials := s.materials.insert a.sku a })
            fun _ _ _ => rfl

end Operation

/-! ### Runs -/

namespace Service

open World

variable {config : Config} {m : Mask} {tenant : TenantId} {s s' t : Stores}

theorem alike_empty (m : Mask) (tenant : TenantId) : Alike m tenant .empty .empty where
  rules _ := rfl
  shelves _ := rfl
  quotes _ := rfl
  log := ⟨[], [], rfl, rfl, rfl⟩
  patterns _ := rfl
  placed := PatternStore.placed_empty
  placed' := PatternStore.placed_empty

theorem after_of {op : Operation} {x : Except ServiceError Answer}
    (h : Yields (op.perform config).run s x t) : after config (.of s) op = .of t :=
  congrArg Prod.snd h

theorem answer_see_of {op : Operation} {x : Except ServiceError Answer}
    (h : Yields (op.perform config).run s x t) : (see config (.of s) op).answer = x :=
  congrArg Prod.fst h

/-- What the other tenants do is not noticed. -/
theorem alike_after_of_ne (config : Config) {op : Operation} (h : Alike m tenant s s')
    (hne : op.tenant ≠ tenant) :
    ∃ t, after config (.of s) op = .of t ∧ Alike m tenant t s' := by
  obtain ⟨x, x', t, t', hx, -, -, -, hleaves⟩ :=
    Operation.confined (.same op) s s (h.refl_left m op.tenant)
  exact ⟨t, after_of hx, hleaves m tenant s' hne.symm h⟩

/-- What a tenant does itself. -/
theorem alike_after (config : Config) {op op' : Operation} (h : Alike m op.tenant s s')
    (hop : m.Twin op op') :
    ∃ t t', after config (.of s) op = .of t ∧ after config (.of s') op' = .of t' ∧
      Alike m op.tenant t t' ∧ (see config (.of s) op).answer.map m.answer =
        (see config (.of s') op').answer.map m.answer := by
  obtain ⟨x, x', t, t', hx, hx', hmatches, halike, -⟩ := Operation.confined hop s s' h
  refine ⟨t, t', after_of hx, after_of hx', halike, ?_⟩
  rw [answer_see_of hx, answer_see_of hx']
  cases hmatches with
  | ok h => exact congrArg Except.ok h
  | error e => rfl

/-- What the answers of a tenant's operations look like. -/
def answersOf (m : Mask) (tenant : TenantId) (events : List Event) :
    List (Except ServiceError Answer) :=
  (events.filter (·.op.tenant == tenant)).map fun e => e.answer.map m.answer

theorem alike_foldl (ops : List Operation) : ∀ {own : List Operation} {s s' : Stores},
    Alike m tenant s s' → List.Forall₂ m.Twin (ops.filter (·.tenant == tenant)) own →
      answersOf m tenant (historyFrom config (.of s) ops) =
        (historyFrom config (.of s') own).map (fun e => e.answer.map m.answer) ∧
      ∃ t t', ops.foldl (after config) (.of s) = .of t ∧
        own.foldl (after config) (.of s') = .of t' ∧ Alike m tenant t t' := by
  induction ops with
  | nil =>
      intro own s s' halike hown
      cases hown
      exact ⟨rfl, s, s', rfl, rfl, halike⟩
  | cons op ops ih =>
      intro own s s' halike hown
      by_cases htenant : op.tenant = tenant
      · subst htenant
        simp only [List.filter_cons, beq_self_eq_true, if_true] at hown
        obtain _ | ⟨hop, hown⟩ := hown
        obtain ⟨t, t', ht, ht', halike, hanswer⟩ := alike_after config halike hop
        obtain ⟨hanswers, hstores⟩ := ih halike hown
        rw [List.foldl_cons, List.foldl_cons, historyFrom, historyFrom, ht, ht']
        refine ⟨?_, hstores⟩
        rw [List.map_cons, ← hanswers, ← hanswer]
        simp only [answersOf, see, List.filter_cons, beq_self_eq_true, if_true, List.map_cons]
      · have hother : (op.tenant == tenant) = false := beq_eq_false_iff_ne.2 htenant
        simp only [List.filter_cons, hother, Bool.false_eq_true, if_false] at hown
        obtain ⟨t, ht, halike⟩ := alike_after_of_ne config halike htenant
        obtain ⟨hanswers, hstores⟩ := ih halike hown
        rw [List.foldl_cons, historyFrom, ht]
        refine ⟨?_, hstores⟩
        rw [← hanswers]
        simp only [answersOf, see, List.filter_cons, hother, Bool.false_eq_true, if_false]

/-- **Tenants do not notice each other.**  Let a run be repeated without the operations of all
tenants but one, and perhaps with other ids and times.  Then this tenant gets the same answers, and
the stores hold the same rules, prices, quotes, log entries and patterns for it, ids and times
aside.  Nothing is asked about the names that the tenants use. -/
theorem tenants_run (config : Config) (m : Mask) (tenant : TenantId) (ops own : List Operation)
    (hown : List.Forall₂ m.Twin (ops.filter (·.tenant == tenant)) own) :
    answersOf m tenant (history config ops) =
        (history config own).map (fun e => e.answer.map m.answer) ∧
      ∃ s s', run config ops = .of s ∧ run config own = .of s' ∧ Alike m tenant s s' :=
  alike_foldl ops (alike_empty m tenant) hown

/-- A tenant stores a rule, has a quote made, corrects it and looks at what has been learned. -/
def oneQuote (tenant : TenantId) (adjusted : Decimal) (id : EntryId) (now : Timestamp) :
    List Operation := [
  .putRule ⟨tenant, ⟨.bathroom, .basic⟩, ∅, Table.ofList [("tile", "areaM2")], now, now⟩,
  .issueQuote tenant "q1" ⟨.bathroom, .basic, .whole 10, false, false, ∅⟩ "standard",
  .correct tenant (.ofQuantities "q1" .material "tile" (.whole 10) adjusted) id now,
  .insights tenant]

/-- Two tenants do so in turns, under the same names. -/
def inTurns : List Operation :=
  (List.zipWith (fun a b => [a, b]) (oneQuote "globex" (.whole 8) default .epoch)
    (oneQuote "acme" (.whole 11) default .epoch)).flatten

/-- One of them alone, with another id and at another time. -/
def alone : List Operation :=
  oneQuote "acme" (.whole 11) ⟨1, by decide⟩ ⟨⟨2024, 2, 29⟩, 600, 0, 0⟩

/-- Nothing of the other tenant's correction gets through. -/
theorem tenants_run_inTurns :
    List.Forall₂ Mask.full.Twin (inTurns.filter (·.tenant == "acme")) alone ∧
      answersOf .full "acme" (history .standard inTurns) =
        (history .standard alone).map (fun e => e.answer.map Mask.full.answer) ∧
      ∃ s s', run .standard inTurns = .of s ∧ run .standard alone = .of s' ∧
        Alike .full "acme" s s' := by
  have hown : List.Forall₂ Mask.full.Twin (inTurns.filter (·.tenant == "acme")) alone :=
    .cons (.putRule rfl) (.cons (.same _) (.cons (.correct _ _ rfl rfl) (.cons (.same _) .nil)))
  exact ⟨hown, tenants_run .standard .full "acme" inTurns alone hown⟩

end Service
end Estimating
