/-
A correction comes back in the next report.

A quote is bound to its rule key when its report is made, and stays bound until another report of it
is made.  Each line of the report stands for an item of a rule, so it has a name under which
corrections of it are learned; generation finds under this name what has been learned, and no other
item has it.

* `Event.Binds`, `Event.Spares` — an event that binds a quote, and one that leaves what has been
  learned under a key as it is;
* `Service.run_keeps` — what the events of a run keep, the run keeps;
* `Rule.eq_of_item_eq` — the items of a rule that is well formed have names of their own;
* `Service.see_correct` — a correction of a line of a report is learned under its key and no other;
* `Item.Carries` — what a line reports of a pattern, and `Service.carries_of_generate`;
* `Service.feedback_run` — **a correction comes back in the next report**.
-/
import Estimating.Proofs.Service.Rules

set_option autoImplicit false

namespace Estimating

/-! ### What an operation leaves as it is -/

/-- The report of a quote was made. -/
def Event.Binds (tenant : TenantId) (quote : QuoteId) (e : Event) : Prop :=
  ∃ requirements profile report, e.op = .issueQuote tenant quote requirements profile ∧
    e.answer = .ok (.report report)

/-- Nothing was learned or forgotten under a key. -/
def Event.Spares (tenant : TenantId) (key : PatternKey) (e : Event) : Prop :=
  ∀ es, e.edits tenant key es = es

namespace Effect

variable {config : Config} {s s' : Stores} {op : Operation} {result : Except ServiceError Answer}

/-- A quote stays bound unless another report of it is made. -/
theorem quotes_get (h : Effect config s op result s') {tenant : TenantId} {quote : QuoteId}
    (hkept : ¬ Event.Binds tenant quote ⟨.of s, op, result⟩) :
    s'.quotes.get tenant quote = s.quotes.get tenant quote := by
  cases h with
  | bind tenant' quote' requirements profile report =>
      rw [QuoteStore.get_bind, if_neg]
      rintro ⟨rfl, rfl⟩
      exact hkept ⟨requirements, profile, report, rfl, rfl⟩
  | _ => rfl

/-- What is stored under a key stays unless something is learned or forgotten. -/
theorem patterns_get (h : Effect config s op result s') (hplaced : s.patterns.Placed)
    {tenant : TenantId} {key : PatternKey} (hspares : Event.Spares tenant key ⟨.of s, op, result⟩) :
    s'.patterns.get tenant key = s.patterns.get tenant key := by
  cases h with
  | @learn tenant' r id now key' sample next hrule hitem hsample hnext =>
      have hplace : next.place = ⟨tenant', key'⟩ := hplaced.observe hnext
      refine (PatternStore.get_insert_versioned ..).trans (if_neg ?_)
      rw [hplace]
      intro hsame
      obtain ⟨rfl, rfl⟩ := Owned.mk.inj hsame
      have hone : (if tenant' = tenant' ∧ r.item = key'.item ∧
          s.quotes.get tenant' r.quote = some key'.ruleKey then [(r.oldQty, r.newQty)] else []) =
          [] := hspares []
      rw [if_pos ⟨rfl, hitem.symm, hrule⟩] at hone
      cases hone
  | forget tenant' key' =>
      refine (PatternStore.get_delete ..).trans (if_neg ?_)
      rintro ⟨rfl, rfl⟩
      have hone : (if tenant' = tenant' ∧ key' = key' then [] else [(Decimal.zero, Decimal.zero)]) =
          [(Decimal.zero, Decimal.zero)] := hspares _
      rw [if_pos ⟨rfl, rfl⟩] at hone
      cases hone
  | _ => rfl

end Effect

namespace Service

open World

variable {config : Config}

/-- What holds of the stores after a run and is kept by every event from then on holds later. -/
theorem run_keeps (hattempts : config.tuning.maxAttempts ≠ 0) {P : Stores → Prop}
    {Q : Event → Prop}
    (hstep : ∀ {s s' op result}, Effect config s op result s' → s.patterns.Placed →
      Q ⟨.of s, op, result⟩ → P s → P s')
    {ops : List Operation} (h : P (run config ops).stores) (more : List Operation)
    (hmore : ∀ e ∈ historyFrom config (run config ops) more, Q e) :
    P (run config (ops ++ more)).stores := by
  induction more using List.reverseRecOn with
  | nil => rwa [List.append_nil]
  | append_singleton more op ih =>
      have hrun : more.foldl (after config) (run config ops) = run config (ops ++ more) :=
        List.foldl_append.symm
      rw [historyFrom_append, hrun] at hmore
      obtain ⟨s, s', hs, hs', hplaced, heffect⟩ := exists_effect hattempts (ops ++ more) op
      have hlast := hmore (see config (run config (ops ++ more)) op)
        (List.mem_append_right _ (List.mem_singleton.2 rfl))
      have hbefore := ih fun e he => hmore e (List.mem_append_left _ he)
      rw [hs] at heffect hlast hbefore
      rw [← List.append_assoc, hs']
      exact hstep heffect hplaced hlast hbefore

/-! ### The correction of a line -/

/-- A quote is bound to the rule key of its report, whose lines stand for items of a rule. -/
theorem bound_of_see_issueQuote (hpolicy : config.tuning.Valid) {ops : List Operation}
    {tenant : TenantId} {quote : QuoteId} {requirements : Requirements} {profile : String}
    {report : Report}
    (h : (see config (run config ops) (.issueQuote tenant quote requirements profile)).answer =
      .ok (.report report)) :
    (run config (ops ++ [.issueQuote tenant quote requirements profile])).stores.quotes.get tenant
        quote = some report.key ∧
      ∀ line ∈ report.items, line.kind ≠ .custom ∧ isItemRef line.item = true := by
  obtain ⟨s, hs, -⟩ := exists_run_eq_of hpolicy.maxAttempts_ne_zero ops
  rw [see, hs] at h
  rw [run_append_singleton, hs]
  obtain ⟨e, he⟩ | ⟨made, hmade, hquote⟩ :=
    issueQuote_calm config tenant quote requirements profile s
  · have hanswer := congrArg Prod.fst (Operation.yields_map Answer.report he)
    cases hanswer.symm.trans h
  · have hanswer := congrArg Prod.fst (Operation.yields_map Answer.report hquote)
    cases hanswer.symm.trans h
    obtain ⟨rule, hrule, hreport⟩ := exists_rule_of_generate hmade
    obtain ⟨-, -, -, -, -, hkey, -⟩ := Rule.exists_drafts_of_report? hreport
    have hafter : after config (.of s) (.issueQuote tenant quote requirements profile) =
        .of { s with quotes := s.quotes.bind tenant quote requirements.ruleKey } :=
      congrArg Prod.snd (Operation.yields_map Answer.report hquote)
    refine ⟨?_, ?_⟩
    · rw [hafter]
      refine (QuoteStore.get_bind ..).trans ((if_pos ⟨rfl, rfl⟩).trans ?_)
      exact congrArg some hkey.symm
    · intro line hline
      have hshown := Rule.forall₂_shownBy hpolicy hreport
      obtain ⟨e, he, hshows⟩ := exists_mem_zip hshown.flip hline
      have he := (List.of_mem_zip he).2
      have hstored : (run config ops).stores.rules.get tenant requirements.ruleKey = some rule := by
        rw [hs]
        exact hrule
      rw [hshows.kind, hshows.item]
      exact ⟨Rule.kind_ne_of_mem he, isItemRef_of_mem_run hpolicy.maxAttempts_ne_zero hstored he⟩

/-- A correction of a named item to and from quantities that are not negative is in order. -/
theorem fault?_eq_none {r : Correction} (hname : isItemRef r.item = true) (hold : .zero ≤ r.oldQty)
    (hnew : .zero ≤ r.newQty) : r.fault? = none := by
  rw [isItemRef, Bool.and_eq_true, Bool.not_eq_true'] at hname
  rw [Correction.fault?, hname.1, if_neg Bool.false_ne_true, if_neg (Decimal.not_lt.2 hold),
    if_neg (Decimal.not_lt.2 hnew)]

/-- A pattern with the next version is not the one stored. -/
theorem get_ne_versioned {store : PatternStore} {tenant : TenantId} {key : PatternKey}
    (p : Pattern) : store.get tenant key ≠ some (p.versioned (store.versionAt tenant key + 1)) := by
  intro hsame
  have hversion : store.versionAt tenant key = store.versionAt tenant key + 1 := by
    nth_rewrite 1 [PatternStore.versionAt]
    rw [hsame]
    rfl
  exact Nat.succ_ne_self _ hversion.symm

/-- A correction of an item of a rule under which the quote is bound: it is learned under the key of
the item, and what has been learned under other keys stays. -/
theorem see_correct (hpolicy : config.tuning.Valid) {ops : List Operation} {tenant : TenantId}
    {key : PatternKey} {r : Correction} {id : EntryId} {now : Timestamp}
    (hbound : (run config ops).stores.quotes.get tenant r.quote = some key.ruleKey)
    (hkind : r.kind ≠ .custom) (hitem : key.item = r.item) (hold : .zero ≤ r.oldQty)
    (hnew : .zero ≤ r.newQty)
    (hsignificant : config.significance.isSignificant r.oldQty r.newQty = true)
    (hover : (see config (run config ops) (.correct tenant r id now)).answer ≠ .error .overflow) :
    ∃ p, (see config (run config ops) (.correct tenant r id now)).answer =
        .ok (.outcome (.logged id (.updated p.factor p.samples
          (config.tuning.confidence p.samples).tier))) ∧
      (run config (ops ++ [.correct tenant r id now])).stores.patterns.get tenant key = some p ∧
      (run config ops).stores.patterns.get tenant key ≠ some p ∧
      ∀ tenant' key', (⟨tenant', key'⟩ : Owned PatternKey) ≠ ⟨tenant, key⟩ →
        (run config (ops ++ [.correct tenant r id now])).stores.patterns.get tenant' key' =
          (run config ops).stores.patterns.get tenant' key' := by
  obtain ⟨s, hs, hplaced⟩ := exists_run_eq_of hpolicy.maxAttempts_ne_zero ops
  rw [hs] at hbound hover ⊢
  have hfault := fault?_eq_none (hitem ▸ key.isItemRef_item) hold hnew
  rcases correct_significant_calm tenant id now hplaced hpolicy.maxAttempts_ne_zero hkind hbound
    hitem hfault hsignificant with hyields | ⟨sample, next, hsample, hnext, hyields⟩
  · have hanswer := congrArg Prod.fst (Operation.yields_map Answer.outcome hyields)
    exact absurd hanswer hover
  · have hmapped := Operation.yields_map Answer.outcome hyields
    have hafter : run config (ops ++ [.correct tenant r id now]) = .of { s with
        log := s.log.append (logEntry tenant r id now), patterns := s.patterns.put next } := by
      rw [run_append_singleton, hs]
      exact congrArg Prod.snd hmapped
    have hplace : next.place = ⟨tenant, key⟩ := hplaced.observe hnext
    obtain ⟨rfl, rfl⟩ := Owned.mk.inj hplace
    have hget (tenant' : TenantId) (key' : PatternKey) : (s.patterns.put next).get tenant' key' =
        if next.place = ⟨tenant', key'⟩ then
          some (next.versioned (s.patterns.versionAt next.tenant next.key + 1))
        else s.patterns.get tenant' key' := PatternStore.get_insert_versioned ..
    rw [hafter]
    refine ⟨next.versioned (s.patterns.versionAt next.tenant next.key + 1),
      congrArg Prod.fst hmapped, (hget _ _).trans (if_pos rfl), get_ne_versioned next, ?_⟩
    intro tenant' key' hother
    exact (hget tenant' key').trans (if_neg hother.symm)

end Service

/-! ### The next report -/

/-- What a line reports of a pattern, given the value of its expression: how many samples there are,
and the value, or if there are samples enough its product with the learned factor. -/
structure Item.Carries (policy : Policy) (p : Pattern) (base : Decimal) (i : Item) : Prop where
  baseQty : i.baseQty = base
  samples : i.tuning.samples = p.samples
  applied : i.tuning.applied = true ↔ policy.minSamples ≤ p.samples
  qty_of_enough : policy.minSamples ≤ p.samples →
    (base.mul (p.factor.clamp policy.minFactor policy.maxFactor)).map .roundMoney = some i.qty
  qty_of_few : ¬ policy.minSamples ≤ p.samples → i.qty = base

theorem Entry.ShownBy.carries {config : Config} {bindings : Bindings} {e : Entry} {p : Pattern}
    {i : Item} {base : Decimal} (hpolicy : config.tuning.Valid)
    (h : e.ShownBy config bindings (some p) i)
    (hvalue : e.value config.limits bindings = .ok base) : i.Carries config.tuning p base := by
  obtain ⟨-, -, hbaseQty, htuning, hqty⟩ := h
  have hbase : i.baseQty = base := by
    rw [hbaseQty, Entry.qty, hvalue]
    exact Entry.roundMoney_value hvalue
  have hok : (e.value config.limits bindings).isOk = true := by
    rw [hvalue]
    rfl
  rw [if_pos hok] at htuning hqty
  rw [hbase, Policy.reported] at hqty
  by_cases henough : config.tuning.minSamples ≤ p.samples
  · rw [TuningNote.ofPattern_of_enough henough] at htuning
    rw [if_pos henough, Policy.tuned, hpolicy.clamp_eq, Option.bind_some] at hqty
    exact ⟨hbase, by rw [htuning], by simp [htuning, henough], fun _ => hqty,
      fun hfew => absurd henough hfew⟩
  · rw [TuningNote.ofPattern_of_few henough] at htuning
    rw [if_neg henough] at hqty
    exact ⟨hbase, by rw [htuning], by simp [htuning, henough], fun h => absurd h henough,
      fun _ => (Option.some.inj hqty).symm⟩

namespace Rule

/-- No item of a rule that is well formed is both labor and a material. -/
theorem not_mem_both {r : Rule} (hfault : r.fault? = none) {item x y : String}
    (hlabor : r.labor[item]? = some x) (hmaterial : r.materials[item]? = some y) : False := by
  unfold fault? at hfault
  split at hfault
  · cases hfault
  · have hnone := Option.map_eq_none_iff.1 (Option.or_eq_none_iff.1 hfault).2
    have hkey : item ∈ r.labor.keys :=
      List.mem_map.2 ⟨(item, x), Std.ExtTreeMap.mem_toList_iff_getElem?_eq_some.2 hlabor, rfl⟩
    have hcontains : r.materials.contains item = true := by
      rw [Std.ExtTreeMap.contains_eq_isSome_getElem?, hmaterial]
      rfl
    exact List.find?_eq_none.1 hnone item hkey hcontains

/-- The items of a rule that is well formed have names of their own. -/
theorem eq_of_item_eq {r : Rule} (hfault : r.fault? = none) {a b : Entry} (ha : a ∈ r.entries)
    (hb : b ∈ r.entries) (hitem : a.item = b.item) : a = b := by
  refine eq_of_mem_entries ha hb (Prod.ext ?_ hitem)
  rcases List.mem_append.1 ha with ha | ha <;> rcases List.mem_append.1 hb with hb | hb <;>
    obtain ⟨hakind, haget⟩ := mem_sectionEntries.1 ha <;>
    obtain ⟨hbkind, hbget⟩ := mem_sectionEntries.1 hb
  · exact hakind.trans hbkind.symm
  · exact (not_mem_both hfault haget (hitem ▸ hbget)).elim
  · exact (not_mem_both hfault hbget (hitem ▸ haget)).elim
  · exact hakind.trans hbkind.symm

end Rule

namespace Service

variable {config : Config}

/-- **What a report says of a pattern stored**: the line of its item carries it, and what any other
line notes is what has been learned for its own item. -/
theorem carries_of_generate (hpolicy : config.tuning.Valid) {ops : List Operation}
    {tenant : TenantId} {key : PatternKey} {p : Pattern} {rule : Rule} {e : Entry} {base : Decimal}
    {bindings : Bindings} {profile : String} {report : Report}
    (hp : (run config ops).stores.patterns.get tenant key = some p)
    (hrule : (run config ops).stores.rules.get tenant key.ruleKey = some rule)
    (he : e ∈ rule.entries) (hitem : e.item = key.item)
    (hvalue : e.value config.limits bindings = .ok base)
    (h : (see config (run config ops) (.generate tenant key.ruleKey bindings profile)).answer =
      .ok (.report report)) :
    (∃ i ∈ report.items, i.item = key.item) ∧ ∀ i ∈ report.items,
      (i.item = key.item → i.Carries config.tuning p base) ∧
      ∃ key', key'.ruleKey = key.ruleKey ∧ key'.item = i.item ∧
        (i.tuning = .untuned ∨ i.tuning = .ofPattern config.tuning
          ((run config ops).stores.patterns.get tenant key')) := by
  have hattempts := hpolicy.maxAttempts_ne_zero
  have hfault := fault?_of_mem_run hattempts ops tenant key.ruleKey rule hrule
  have hnamed {e : Entry} (he : e ∈ rule.entries) : isItemRef e.item = true :=
    isItemRef_of_mem_run hattempts hrule he
  obtain ⟨rule', hrule', hmade⟩ := exists_rule_of_see_generate hattempts h
  obtain rfl := Option.some.inj (hrule.symm.trans hrule')
  have hlines := Rule.forall₂_shownBy hpolicy hmade
  have hpattern (key' : PatternKey) (hkey : key'.ruleKey = key.ruleKey) :
      patternFor ((run config ops).stores.patterns.ofRule tenant key.ruleKey) key'.item =
        (run config ops).stores.patterns.get tenant key' := by
    obtain ⟨s, hs, hplaced⟩ := exists_run_eq_of hattempts ops
    rw [← hkey, hs]
    exact PatternStore.patternFor_list hplaced tenant key'
  constructor
  · obtain ⟨i, hi, hshows⟩ := exists_mem_zip hlines he
    exact ⟨i, (List.of_mem_zip hi).2, hshows.item.trans hitem⟩
  · intro i hi
    obtain ⟨e', he', hshows⟩ := exists_mem_zip hlines.flip hi
    have he' := (List.of_mem_zip he').2
    refine ⟨?_, ⟨⟨key.ruleKey, e'.item, hnamed he'⟩, rfl, hshows.item.symm, ?_⟩⟩
    · intro hsame
      obtain rfl := Rule.eq_of_item_eq hfault he' he
        (hshows.item.symm.trans (hsame.trans hitem.symm))
      rw [hitem, hpattern key rfl, hp] at hshows
      exact hshows.carries hpolicy hvalue
    · have htuning := hshows.tuning
      split at htuning
      · exact .inr (htuning.trans (congrArg _ (hpattern ⟨key.ruleKey, e'.item, hnamed he'⟩ rfl)))
      · exact .inl htuning

/-- **A correction comes back in the next report.**  Let a report of a quote be made, and no other
one since.  A correction of one of its lines that is significant and not negative is then learned,
unless a number is too large, under the key of the line and no other.  As long as nothing more is
learned or forgotten under this key, every report of the rule in which the item has a value carries
what was learned, on the line of this item; any other line notes what has been learned for its own
item. -/
theorem feedback_run (config : Config) (hconfig : config.fault? = none)
    (before between : List Operation) (tenant : TenantId) (quote : QuoteId)
    (requirements : Requirements) (profile : String) (report : Report)
    (hissued : (see config (run config before)
      (.issueQuote tenant quote requirements profile)).answer = .ok (.report report))
    (hkept : ∀ e ∈ historyFrom config
      (run config (before ++ [.issueQuote tenant quote requirements profile])) between,
      ¬ e.Binds tenant quote)
    (line : Item) (hline : line ∈ report.items) (r : Correction) (id : EntryId) (now : Timestamp)
    (hquote : r.quote = quote) (hkind : r.kind = line.kind) (hitem : r.item = line.item)
    (hold : .zero ≤ r.oldQty) (hnew : .zero ≤ r.newQty)
    (hsignificant : config.significance.isSignificant r.oldQty r.newQty = true)
    (ops : List Operation)
    (hops : ops = before ++ [.issueQuote tenant quote requirements profile] ++ between)
    (hover : (see config (run config ops) (.correct tenant r id now)).answer ≠ .error .overflow) :
    ∃ key p, key.ruleKey = report.key ∧ key.item = line.item ∧
      (see config (run config ops) (.correct tenant r id now)).answer =
        .ok (.outcome (.logged id (.updated p.factor p.samples
          (config.tuning.confidence p.samples).tier))) ∧
      (run config (ops ++ [.correct tenant r id now])).stores.patterns.get tenant key = some p ∧
      (run config ops).stores.patterns.get tenant key ≠ some p ∧
      (∀ tenant' key', (⟨tenant', key'⟩ : Owned PatternKey) ≠ ⟨tenant, key⟩ →
        (run config (ops ++ [.correct tenant r id now])).stores.patterns.get tenant' key' =
          (run config ops).stores.patterns.get tenant' key') ∧
      ∀ later,
        (∀ e ∈ historyFrom config (run config (ops ++ [.correct tenant r id now])) later,
          e.Spares tenant key) →
        ∀ bindings profile' next rule e base,
          (see config (run config (ops ++ [.correct tenant r id now] ++ later))
            (.generate tenant report.key bindings profile')).answer = .ok (.report next) →
          (run config (ops ++ [.correct tenant r id now] ++ later)).stores.rules.get tenant
            report.key = some rule →
          e ∈ rule.entries → e.item = line.item → e.value config.limits bindings = .ok base →
          (∃ i ∈ next.items, i.item = line.item) ∧ ∀ i ∈ next.items,
            (i.item = line.item → i.Carries config.tuning p base) ∧
            ∃ key', key'.ruleKey = report.key ∧ key'.item = i.item ∧
              (i.tuning = .untuned ∨ i.tuning = .ofPattern config.tuning
                ((run config (ops ++ [.correct tenant r id now] ++ later)).stores.patterns.get
                  tenant key')) := by
  have hpolicy := Config.valid_tuning hconfig
  have hattempts := hpolicy.maxAttempts_ne_zero
  obtain ⟨hbound, hlines⟩ := bound_of_see_issueQuote hpolicy hissued
  obtain ⟨hlineKind, hname⟩ := hlines line hline
  -- the key of the line
  obtain ⟨key, hkey, hkeyItem⟩ : ∃ key : PatternKey, key.ruleKey = report.key ∧
      key.item = line.item := ⟨⟨report.key, line.item, hname⟩, rfl, rfl⟩
  have hstill : (run config ops).stores.quotes.get tenant r.quote = some key.ruleKey := by
    rw [hops, hquote, hkey]
    exact run_keeps (P := fun s => s.quotes.get tenant quote = some report.key) hattempts
      (fun heffect _ hkept h => (heffect.quotes_get hkept).trans h) hbound between hkept
  obtain ⟨p, hanswer, hp, hchanged, hothers⟩ := see_correct hpolicy hstill (hkind ▸ hlineKind)
    (hkeyItem.trans hitem.symm) hold hnew hsignificant hover
  refine ⟨key, p, hkey, hkeyItem, hanswer, hp, hchanged, hothers, ?_⟩
  intro later hlater bindings profile' next rule e base hgenerate hrule he heitem hvalue
  have hp' : (run config (ops ++ [.correct tenant r id now] ++ later)).stores.patterns.get tenant
      key = some p :=
    run_keeps (P := fun s => s.patterns.get tenant key = some p) hattempts
      (fun heffect hplaced hspares h => (heffect.patterns_get hplaced hspares).trans h) hp later
      hlater
  rw [← hkey] at hgenerate hrule ⊢
  rw [← hkeyItem] at heitem ⊢
  exact carries_of_generate hpolicy hp' hrule he heitem hvalue hgenerate

/-- One sample is enough. -/
def firstSampleCounts : Config :=
  { Config.standard with tuning := { Policy.standard with minSamples := 1 } }

/-- The quote of a bathroom of ten square meters. -/
def tilingQuote : Operation :=
  .issueQuote "acme" "q1" ⟨.bathroom, .basic, .whole 10, false, false, ∅⟩ "standard"

/-- Ten square meters are made eleven. -/
def tilingCorrection : Correction := .ofQuantities "q1" .labor "tiling" (.whole 10) (.whole 11)

/-- The correction of the only line of a quote comes back in the next report. -/
theorem feedback_run_tiling :
    firstSampleCounts.fault? = none ∧
      ∃ report line, (see firstSampleCounts (run firstSampleCounts [.putRule (tilingAs "areaM2" 1)])
          tilingQuote).answer = .ok (.report report) ∧ line ∈ report.items ∧
        ∃ key p, key.ruleKey = report.key ∧ key.item = line.item ∧
          (run firstSampleCounts [.putRule (tilingAs "areaM2" 1), tilingQuote,
            .correct "acme" tilingCorrection default .epoch]).stores.patterns.get "acme" key =
              some p ∧
          ∃ next, (see firstSampleCounts (run firstSampleCounts [.putRule (tilingAs "areaM2" 1),
              tilingQuote, .correct "acme" tilingCorrection default .epoch])
              (.generate "acme" report.key tenSquareMeters "standard")).answer =
                .ok (.report next) ∧
            ∃ i ∈ next.items, i.Carries firstSampleCounts.tuning p (.hundredths 1000) := by
  have hconfig : firstSampleCounts.fault? = none := by decide
  have hissue : ((see firstSampleCounts (run firstSampleCounts [.putRule (tilingAs "areaM2" 1)])
      tilingQuote).report?.map fun r => (r.key, r.items.map Item.name)) =
        some (⟨.bathroom, .basic⟩, [(.labor, "tiling")]) := by decide +kernel
  obtain ⟨report, hreport, hshape⟩ := Option.map_eq_some_iff.1 hissue
  obtain ⟨hkey, hitems⟩ := Prod.mk.inj hshape
  obtain ⟨line, hline, hname⟩ := List.mem_map.1 (hitems ▸ List.mem_singleton.2 rfl)
  obtain ⟨hkind, hitem⟩ := Prod.mk.inj hname
  have hissued := Event.report?_eq_some hreport
  have hok : (see firstSampleCounts (run firstSampleCounts [.putRule (tilingAs "areaM2" 1),
      tilingQuote]) (.correct "acme" tilingCorrection default .epoch)).answer.isOk = true := by
    decide +kernel
  obtain ⟨key, p, hruleKey, hkeyItem, -, hp, -, -, hnext⟩ := feedback_run firstSampleCounts hconfig
    [.putRule (tilingAs "areaM2" 1)] [] "acme" "q1" _ "standard" report hissued
    (by simp [historyFrom]) line hline tilingCorrection default .epoch rfl hkind.symm hitem.symm
    (by decide) (by decide) (by decide +kernel) [.putRule (tilingAs "areaM2" 1), tilingQuote] rfl
    (fun hover => by rw [hover] at hok; cases hok)
  have hrules : ((run firstSampleCounts [.putRule (tilingAs "areaM2" 1), tilingQuote,
      .correct "acme" tilingCorrection default .epoch]).stores.rules.get "acme"
        ⟨.bathroom, .basic⟩).map Rule.entries = some [⟨.labor, "tiling", "areaM2"⟩] := by
    decide +kernel
  obtain ⟨rule, hrule, hentries⟩ := Option.map_eq_some_iff.1 hrules
  have hgenerated : (see firstSampleCounts (run firstSampleCounts [.putRule (tilingAs "areaM2" 1),
      tilingQuote, .correct "acme" tilingCorrection default .epoch])
      (.generate "acme" ⟨.bathroom, .basic⟩ tenSquareMeters "standard")).report?.isSome := by
    decide +kernel
  obtain ⟨next, hgenerate⟩ := Option.isSome_iff_exists.1 hgenerated
  rw [← hkey] at hrule hgenerate
  have hanswer := Event.report?_eq_some hgenerate
  have hvalue : Entry.value ⟨.labor, "tiling", "areaM2"⟩ firstSampleCounts.limits tenSquareMeters =
      .ok (.hundredths 1000) := by decide +kernel
  obtain ⟨⟨i, hi, hsame⟩, hcarries⟩ := hnext [] (by simp [historyFrom]) tenSquareMeters "standard"
    next rule ⟨.labor, "tiling", "areaM2"⟩ (.hundredths 1000) hanswer hrule
    (hentries ▸ List.mem_singleton.2 rfl) hitem.symm hvalue
  exact ⟨hconfig, report, line, hissued, hline, key, p, hruleKey, hkeyItem, hp, next, hanswer, i,
    hi, (hcarries i hi).1 hsame⟩

end Service

end Estimating
