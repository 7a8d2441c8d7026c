/-
The operations of the service where all stores work.

Without outages a call to a store has one answer, and an operation takes stores to a result and to
stores again.

* `World.Yields` — what a call or an operation answers, and the stores after it;
* `World.Reads` — a call or an operation that changes nothing, with its closure under sequence and
  iteration;
* `Service.reads_generate` and others — the operations that only read;
* `Learning.record_calm` — a recording is done at its first attempt;
* `Service.issueQuote_calm`, `Service.correct_calm`, `Service.forget_calm`, `Service.putRule_calm`,
  `Service.deleteRule_calm` — **what the other operations do**.
-/
import Estimating.Proofs.Learning.Observation
import Estimating.Service.Operations

set_option autoImplicit false

namespace Estimating

/-! ### Calls where all stores work -/

namespace World

variable {ε α β : Type} {s s' s'' : Stores}

/-- On stores that work, the call answers `x` and leaves the stores `s'`. -/
def Yields (call : StateM World α) (s : Stores) (x : α) (s' : Stores) : Prop :=
  call.run (.of s) = (x, .of s')

/-- A call that changes no store. -/
def Reads (call : StateM World α) : Prop := ∀ s, ∃ x, Yields call s x s

theorem Yields.bind {a : ExceptT ε (StateM World) α} {f : α → ExceptT ε (StateM World) β} {x : α}
    {r : Except ε β} (h : Yields a.run s (.ok x) s') (hf : Yields (f x).run s' r s'') :
    Yields (a >>= f).run s r s'' := by
  unfold Yields at *
  rw [ExceptT.run_bind, StateT.run_bind, h]
  exact hf

theorem Yields.bind_error {a : ExceptT ε (StateM World) α} {f : α → ExceptT ε (StateM World) β}
    {e : ε} (h : Yields a.run s (.error e) s') : Yields (a >>= f).run s (.error e) s' := by
  unfold Yields at *
  rw [ExceptT.run_bind, StateT.run_bind, h]
  rfl

theorem Yields.andThen {call : StateM World α} {f : α → StateM World β} {x : α} {y : β}
    (h : Yields call s x s') (hf : Yields (f x) s' y s'') : Yields (call >>= f) s y s'' := by
  unfold Yields at *
  rw [StateT.run_bind, h]
  exact hf

theorem Yields.map {call : StateM World α} {x : α} (g : α → β) (h : Yields call s x s') :
    Yields (g <$> call) s (g x) s' := by
  unfold Yields at *
  rw [StateT.run_map, h]
  rfl

theorem Yields.map_run {a : ExceptT ε (StateM World) α} {r : Except ε α} (g : α → β)
    (h : Yields a.run s r s') : Yields (g <$> a).run s (r.map g) s' := by
  rw [ExceptT.run_map]
  exact h.map _

theorem yields_pure (x : α) : Yields (pure x : ExceptT ε (StateM World) α).run s (.ok x) s := rfl

theorem yields_throw (e : ε) :
    Yields (throw e : ExceptT ε (StateM World) α).run s (.error e) s := rfl

theorem yields_ask (name : StoreName) (read : Stores → Except StoreError α) :
    Yields (ask name read) s (read s) s := rfl

theorem yields_change (name : StoreName) (f : Stores → Stores × α) :
    Yields (change name f) s (.ok (f s).2) (f s).1 := rfl

theorem reads_ask (name : StoreName) (read : Stores → Except StoreError α) :
    Reads (ask name read) := fun s => ⟨read s, rfl⟩

theorem reads_pure (x : α) : Reads (pure x : ExceptT ε (StateM World) α).run :=
  fun _ => ⟨.ok x, rfl⟩

theorem reads_throw (e : ε) : Reads (throw e : ExceptT ε (StateM World) α).run :=
  fun _ => ⟨.error e, rfl⟩

theorem Reads.bind {a : ExceptT ε (StateM World) α} {f : α → ExceptT ε (StateM World) β}
    (ha : Reads a.run) (hf : ∀ x, Reads (f x).run) : Reads (a >>= f).run := by
  intro s
  obtain ⟨r, hr⟩ := ha s
  cases r with
  | error e => exact ⟨.error e, hr.bind_error⟩
  | ok x =>
      obtain ⟨r', hr'⟩ := hf x s
      exact ⟨r', hr.bind hr'⟩

/-- A call that changes no store leaves the world as it was. -/
theorem Reads.world_eq {call : StateM World α} (h : Reads call) {x : α} {w : World}
    (hrun : call.run (.of s) = (x, w)) : w = .of s := by
  obtain ⟨y, hy⟩ := h s
  exact (Prod.mk.inj (hrun.symm.trans hy)).2

theorem Reads.map {call : StateM World α} (h : Reads call) (g : α → β) : Reads (g <$> call) := by
  intro s
  obtain ⟨x, hx⟩ := h s
  exact ⟨g x, hx.map g⟩

/-- A list of calls that change nothing changes nothing. -/
theorem Reads.mapM {f : α → ExceptT ε (StateM World) β} (hf : ∀ x, Reads (f x).run) :
    ∀ xs : List α, Reads (xs.mapM f).run := by
  intro xs
  induction xs with
  | nil => exact reads_pure []
  | cons x xs ih =>
      rw [List.mapM_cons]
      exact (hf x).bind fun y => ih.bind fun ys => reads_pure (y :: ys)

end World

namespace Action

open World

variable {ε α : Type} {s s' : Stores}

theorem yields_attempt {call : StateM World (Except ε α)} {x : Except ε α}
    (h : Yields call s x s') : Yields (attempt call).run s (.ok x) s' := h.map _

theorem yields_ofStore {call : StateM World (Except StoreError α)} {x : α}
    (h : Yields call s (.ok x) s') : Yields (ofStore call).run s (.ok x) s' := h.map _

theorem yields_ofDecimal (x : Option α) (s : Stores) :
    Yields (ofDecimal x).run s (x.elim (.error .overflow) .ok) s := by
  cases x with
  | none => exact yields_throw _
  | some x => exact yields_pure x

theorem reads_ofDecimal (x : Option α) : Reads (ofDecimal x).run :=
  fun s => ⟨_, yields_ofDecimal x s⟩

end Action

/-! ### Operations that only read -/

namespace Learning

open World

variable (policy : Policy) (tenant : TenantId) (key : RuleKey) (s : Stores)

theorem yields_ofDecimal {α : Type} (x : Option α) :
    Yields (ofDecimal x).run s (x.elim (.error .overflow) .ok) s := by
  cases x with
  | none => exact yields_throw _
  | some x => exact yields_pure x

theorem yields_all : Yields (all tenant).run s (.ok (s.patterns.list tenant)) s :=
  (yields_ask _ _).map _

theorem yields_ofRule : Yields (ofRule tenant key).run s
    (.ok ((s.patterns.list tenant).filter fun p => p.key.ruleKey == key)) s :=
  (yields_all tenant s).bind (yields_pure _)

theorem yields_insights : Yields (insights policy tenant).run s
    ((Estimating.insights (s.patterns.list tenant) policy).elim (.error .overflow) .ok) s :=
  (yields_all tenant s).bind (yields_ofDecimal s _)

theorem yields_summary : Yields (summary policy tenant key).run s
    ((RuleSummary.ofPatterns key ((s.patterns.list tenant).filter fun p => p.key.ruleKey == key)
      policy).elim (.error .overflow) .ok) s :=
  (yields_ofRule tenant key s).bind (yields_ofDecimal s _)

end Learning

namespace Service

open World

variable (config : Config) (tenant : TenantId)

theorem reads_findRule (key : RuleKey) : Reads (findRule tenant key).run := by
  refine ((reads_ask _ _).map _).bind fun rule => ?_
  cases rule with
  | none => exact reads_throw _
  | some rule => exact reads_pure rule

theorem reads_draft (bindings : Bindings) (profile : String) (e : Entry) :
    Reads (draft config tenant bindings profile e).run :=
  ((reads_ask _ _).map _).bind fun _ => Action.reads_ofDecimal _

theorem reads_describe (profile : String) : Reads (describe tenant profile).run :=
  ((reads_ask _ _).map _).bind fun _ => reads_pure _

/-- Generation changes nothing. -/
theorem reads_generate (key : RuleKey) (bindings : Bindings) (profile : String) :
    Reads (generate config tenant key bindings profile).run := by
  refine (reads_findRule tenant key).bind fun rule => ?_
  refine (Reads.mapM (reads_draft config tenant bindings profile) rule.entries).bind fun _ => ?_
  refine (reads_describe tenant profile).bind fun _ => ?_
  refine (Reads.map (fun s => ⟨_, Learning.yields_ofRule tenant key s⟩) _).bind fun _ => ?_
  exact Action.reads_ofDecimal _

theorem reads_corrections (quote : QuoteId) : Reads (corrections tenant quote).run :=
  (reads_ask _ _).map _

theorem reads_insights : Reads (insights config tenant).run :=
  Reads.map (fun s => ⟨_, Learning.yields_insights config.tuning tenant s⟩) _

theorem reads_ruleSummary (key : RuleKey) : Reads (ruleSummary config tenant key).run :=
  Reads.map (fun s => ⟨_, Learning.yields_summary config.tuning tenant key s⟩) _

theorem reads_listRules : Reads (listRules tenant).run := (reads_ask _ _).map _

end Service

/-! ### Recordings -/

namespace World

variable {s : Stores}

theorem yields_readPattern (tenant : TenantId) (key : PatternKey) :
    Yields (readPattern tenant key) s (.ok (s.patterns.get tenant key)) s := rfl

theorem yields_writePattern {p saved : Pattern} {expected : Nat} {patterns : PatternStore}
    (h : s.patterns.write p expected = .ok (patterns, saved)) :
    Yields (writePattern p expected) s (.ok saved) { s with patterns } := by
  have hmeet (c : Option StoreError) : Yields (meetOutage .patterns c) s none s := rfl
  refine (hmeet _).andThen ?_
  simp only [Yields, StateT.run_modifyGet, of, h]
  rfl

end World

namespace Sampling

open World

variable {s : Stores} {q : Sampling}

theorem recordFrom_calm_of_observe_eq_none
    (h : q.observe (s.patterns.get q.tenant q.key) = none) (attempts : Nat) :
    Yields (recordFrom readPattern writePattern q (attempts + 1)) s (.error .overflow) s := by
  rw [recordFrom]
  refine (yields_readPattern q.tenant q.key).andThen ?_
  simp only
  rw [prepare_get, h]
  rfl

theorem recordFrom_calm_of_observe_eq_some {next : Pattern} (hplaced : s.patterns.Placed)
    (h : q.observe (s.patterns.get q.tenant q.key) = some next) (attempts : Nat) :
    Yields (recordFrom readPattern writePattern q (attempts + 1)) s
      (.ok (next.versioned (s.patterns.versionAt q.tenant q.key + 1)))
      { s with patterns := s.patterns.put next } := by
  obtain ⟨htenant, hkey⟩ := Owned.mk.inj (hplaced.observe h)
  rw [recordFrom]
  refine (yields_readPattern q.tenant q.key).andThen ?_
  simp only
  rw [prepare_get, h]
  -- nobody writes in between
  have hversion : s.patterns.versionAt next.tenant next.key =
      s.patterns.versionAt q.tenant q.key := by rw [htenant, hkey]
  refine (yields_writePattern (PatternStore.write_of_versionAt_eq hversion)).andThen ?_
  rw [PatternStore.put, hversion]
  rfl

end Sampling

namespace Learning

open World

variable {s : Stores}

theorem record_calm_of_observe_eq_some {policy : Policy} {tenant : TenantId} {key : PatternKey}
    {old new sample : Decimal} {now : Timestamp} {next : Pattern} (hplaced : s.patterns.Placed)
    (hattempts : policy.maxAttempts ≠ 0)
    (hsample : policy.clamp (changeFactor old new) = some sample)
    (hnext : Sampling.observe ⟨tenant, key, sample, policy, now⟩ (s.patterns.get tenant key) =
      some next) :
    Yields (record policy tenant key old new now).run s
      (.ok (next.versioned (s.patterns.versionAt tenant key + 1)))
      { s with patterns := s.patterns.put next } := by
  obtain ⟨n, hn⟩ := Nat.exists_eq_succ_of_ne_zero hattempts
  rw [record, hsample]
  refine (yields_pure sample).bind ?_
  show Yields (Sampling.recordFrom readPattern writePattern ⟨tenant, key, sample, policy, now⟩
    policy.maxAttempts) s _ _
  rw [hn]
  exact Sampling.recordFrom_calm_of_observe_eq_some hplaced hnext n

/-- **A recording is done at its first attempt**, unless a number is too large. -/
theorem record_calm {policy : Policy} (tenant : TenantId) (key : PatternKey) (old new : Decimal)
    (now : Timestamp) (hplaced : s.patterns.Placed) (hattempts : policy.maxAttempts ≠ 0) :
    Yields (record policy tenant key old new now).run s (.error .overflow) s ∨
      ∃ sample next, policy.clamp (changeFactor old new) = some sample ∧
        Sampling.observe ⟨tenant, key, sample, policy, now⟩ (s.patterns.get tenant key) =
          some next ∧
        Yields (record policy tenant key old new now).run s
          (.ok (next.versioned (s.patterns.versionAt tenant key + 1)))
          { s with patterns := s.patterns.put next } := by
  cases hsample : policy.clamp (changeFactor old new) with
  | none =>
      rw [record, hsample]
      exact .inl (yields_throw _).bind_error
  | some sample =>
      let q : Sampling := ⟨tenant, key, sample, policy, now⟩
      cases hnext : q.observe (s.patterns.get tenant key) with
      | none =>
          obtain ⟨n, hn⟩ := Nat.exists_eq_succ_of_ne_zero hattempts
          rw [record, hsample]
          refine .inl ((yields_pure sample).bind ?_)
          show Yields (q.recordFrom readPattern writePattern policy.maxAttempts) s _ _
          rw [hn]
          exact Sampling.recordFrom_calm_of_observe_eq_none hnext n
      | some next =>
          exact .inr ⟨sample, next, rfl, hnext,
            record_calm_of_observe_eq_some hplaced hattempts hsample hnext⟩

theorem forget_calm (tenant : TenantId) (key : PatternKey) (s : Stores) :
    Yields (forget tenant key).run s (.ok (s.patterns.delete tenant key).2)
      { s with patterns := (s.patterns.delete tenant key).1 } := (yields_change _ _).map _

end Learning

/-! ### Operations that change something -/

namespace Service

open World

variable {config : Config} {s : Stores}

/-- A quote is bound to its rule key once its report is made; else nothing happens. -/
theorem issueQuote_calm (config : Config) (tenant : TenantId) (quote : QuoteId)
    (requirements : Requirements) (profile : String) (s : Stores) :
    (∃ e, Yields (issueQuote config tenant quote requirements profile).run s (.error e) s) ∨
      ∃ report,
        Yields (generate config tenant requirements.ruleKey requirements.bindings profile).run s
          (.ok report) s ∧
        Yields (issueQuote config tenant quote requirements profile).run s
          (.ok { report with quote := some quote })
          { s with quotes := s.quotes.bind tenant quote requirements.ruleKey } := by
  rw [issueQuote]
  cases requirements.fault? with
  | some fault => exact .inl ⟨_, (yields_throw _).bind_error⟩
  | none =>
      obtain ⟨r, hr⟩ := reads_generate config tenant requirements.ruleKey requirements.bindings
        profile s
      cases r with
      | error e => exact .inl ⟨e, (yields_pure ()).bind hr.bind_error⟩
      | ok report =>
          refine .inr ⟨report, hr, (yields_pure ()).bind (hr.bind ?_)⟩
          exact (Action.yields_ofStore (yields_change _ _)).bind (yields_pure _)

/-- Learning from a correction of a quote that is bound to a rule key: a sample is recorded, unless
a number is too large. -/
theorem learn_bound_calm {key : PatternKey} {r : Correction} (tenant : TenantId) (now : Timestamp)
    (hplaced : s.patterns.Placed) (hattempts : config.tuning.maxAttempts ≠ 0)
    (hkind : r.kind ≠ .custom) (hrule : s.quotes.get tenant r.quote = some key.ruleKey)
    (hitem : key.item = r.item) :
    Yields (learn config tenant r now).run s (.error .overflow) s ∨
    ∃ sample next, config.tuning.clamp (changeFactor r.oldQty r.newQty) = some sample ∧
      Sampling.observe ⟨tenant, key, sample, config.tuning, now⟩ (s.patterns.get tenant key) =
        some next ∧
      Yields (learn config tenant r now).run s
        (.ok (.updated next.factor next.samples (config.tuning.confidence next.samples).tier))
        { s with patterns := s.patterns.put next } := by
  have hbound : Yields (Action.attempt (World.ask .quotes fun s =>
      .ok (s.quotes.get tenant r.quote))).run s (.ok (.ok (some key.ruleKey))) s :=
    hrule ▸ Action.yields_attempt (yields_ask _ _)
  rw [learn, if_neg hkind]
  rcases Learning.record_calm tenant key r.oldQty r.newQty now hplaced hattempts with
    hover | ⟨sample, next, hsample, hnext, hrecord⟩
  · refine .inl (hbound.bind ?_)
    simp only [learnUnder, ← hitem, PatternKey.make_eq]
    exact (Action.yields_attempt hover).bind (yields_throw _)
  · refine .inr ⟨sample, next, hsample, hnext, hbound.bind ?_⟩
    simp only [learnUnder, ← hitem, PatternKey.make_eq]
    exact (Action.yields_attempt hrecord).bind (yields_pure _)

/-- Learning from a correction.  Either a sample is recorded under the rule key of the quote, or
nothing happens and nothing is told to have been updated. -/
theorem learn_calm (tenant : TenantId) (r : Correction) (now : Timestamp)
    (hplaced : s.patterns.Placed) (hattempts : config.tuning.maxAttempts ≠ 0) :
    (∃ result, Yields (learn config tenant r now).run s result s ∧
      ∀ factor samples tier, result ≠ .ok (.updated factor samples tier)) ∨
    ∃ key sample next, s.quotes.get tenant r.quote = some key.ruleKey ∧ key.item = r.item ∧
      config.tuning.clamp (changeFactor r.oldQty r.newQty) = some sample ∧
      Sampling.observe ⟨tenant, key, sample, config.tuning, now⟩ (s.patterns.get tenant key) =
        some next ∧
      Yields (learn config tenant r now).run s
        (.ok (.updated next.factor next.samples (config.tuning.confidence next.samples).tier))
        { s with patterns := s.patterns.put next } := by
  by_cases hkind : r.kind = .custom
  · rw [learn, if_pos hkind]
    exact .inl ⟨_, yields_pure _, nofun⟩
  · have hbound : Yields (Action.attempt (World.ask .quotes fun s =>
        .ok (s.quotes.get tenant r.quote))).run s (.ok (.ok (s.quotes.get tenant r.quote))) s :=
      Action.yields_attempt (yields_ask _ _)
    cases hrule : s.quotes.get tenant r.quote with
    | none =>
        rw [hrule] at hbound
        rw [learn, if_neg hkind]
        exact .inl ⟨_, hbound.bind (yields_pure _), nofun⟩
    | some ruleKey =>
        cases hmake : PatternKey.make ruleKey r.item with
        | error e =>
            rw [hrule] at hbound
            rw [learn, if_neg hkind]
            refine .inl ⟨.ok (.failed e.message), hbound.bind ?_, nofun⟩
            simp only [learnUnder, hmake]
            exact yields_pure _
        | ok key =>
            obtain ⟨rfl, hitem⟩ := PatternKey.make_eq_ok hmake
            rcases learn_bound_calm tenant now hplaced hattempts hkind hrule hitem with
              hover | ⟨sample, next, hsample, hnext, hlearn⟩
            · exact .inl ⟨.error .overflow, hover, nofun⟩
            · exact .inr ⟨key, sample, next, rfl, hitem, hsample, hnext, hlearn⟩

/-- A correction that is in order and significant, of a quote that is bound to a rule key: it is
logged, and a sample is recorded unless a number is too large. -/
theorem correct_significant_calm {key : PatternKey} {r : Correction} (tenant : TenantId)
    (id : EntryId) (now : Timestamp) (hplaced : s.patterns.Placed)
    (hattempts : config.tuning.maxAttempts ≠ 0) (hkind : r.kind ≠ .custom)
    (hrule : s.quotes.get tenant r.quote = some key.ruleKey) (hitem : key.item = r.item)
    (hfault : r.fault? = none)
    (hsignificant : config.significance.isSignificant r.oldQty r.newQty = true) :
    Yields (correct config tenant r id now).run s (.error .overflow)
        { s with log := s.log.append (logEntry tenant r id now) } ∨
      ∃ sample next, config.tuning.clamp (changeFactor r.oldQty r.newQty) = some sample ∧
        Sampling.observe ⟨tenant, key, sample, config.tuning, now⟩ (s.patterns.get tenant key) =
          some next ∧
        Yields (correct config tenant r id now).run s
          (.ok (.logged id (.updated next.factor next.samples
            (config.tuning.confidence next.samples).tier)))
          { s with
            log := s.log.append (logEntry tenant r id now), patterns := s.patterns.put next } := by
  have hlog : Yields (Action.ofStore (World.change .log fun s =>
      ({ s with log := s.log.append (logEntry tenant r id now) }, ()))).run s (.ok ())
      { s with log := s.log.append (logEntry tenant r id now) } :=
    Action.yields_ofStore (yields_change _ _)
  rw [correct, hfault, if_pos hsignificant]
  rcases learn_bound_calm (s := { s with log := s.log.append (logEntry tenant r id now) })
    tenant now hplaced hattempts hkind hrule hitem with
    hover | ⟨sample, next, hsample, hnext, hlearn⟩
  · exact .inl ((yields_pure ()).bind (hlog.bind hover.bind_error))
  · exact .inr ⟨sample, next, hsample, hnext,
      (yields_pure ()).bind (hlog.bind (hlearn.bind (yields_pure _)))⟩

/-- A correction of a quote that is bound to a rule key: if it is logged, it is significant, and a
sample is recorded. -/
theorem correct_bound_calm {key : PatternKey} {r : Correction} (tenant : TenantId) (id : EntryId)
    (now : Timestamp) (hplaced : s.patterns.Placed) (hattempts : config.tuning.maxAttempts ≠ 0)
    (hkind : r.kind ≠ .custom) (hrule : s.quotes.get tenant r.quote = some key.ruleKey)
    (hitem : key.item = r.item) :
    (∃ result log, Yields (correct config tenant r id now).run s result { s with log } ∧
      ∀ entry lesson, result ≠ .ok (.logged entry lesson)) ∨
    ∃ sample next, config.significance.isSignificant r.oldQty r.newQty = true ∧
      config.tuning.clamp (changeFactor r.oldQty r.newQty) = some sample ∧
      Sampling.observe ⟨tenant, key, sample, config.tuning, now⟩ (s.patterns.get tenant key) =
        some next ∧
      Yields (correct config tenant r id now).run s
        (.ok (.logged id (.updated next.factor next.samples
          (config.tuning.confidence next.samples).tier)))
        { s with
          log := s.log.append (logEntry tenant r id now), patterns := s.patterns.put next } := by
  cases hfault : r.fault? with
  | some fault =>
      rw [correct, hfault]
      exact .inl ⟨_, s.log, (yields_throw _).bind_error, nofun⟩
  | none =>
      by_cases hsignificant : config.significance.isSignificant r.oldQty r.newQty
      · rcases correct_significant_calm tenant id now hplaced hattempts hkind hrule hitem hfault
          hsignificant with hover | ⟨sample, next, hsample, hnext, hcorrect⟩
        · exact .inl ⟨_, _, hover, nofun⟩
        · exact .inr ⟨sample, next, hsignificant, hsample, hnext, hcorrect⟩
      · rw [correct, hfault, if_neg hsignificant]
        exact .inl ⟨_, s.log, (yields_pure ()).bind (yields_pure _), nofun⟩

/-- A correction by a user is refused or ignored; or it is logged, and nothing is told to have been
updated; or it is logged and a sample recorded under the rule key of the quote. -/
theorem correct_calm (tenant : TenantId) (r : Correction) (id : EntryId) (now : Timestamp)
    (hplaced : s.patterns.Placed) (hattempts : config.tuning.maxAttempts ≠ 0) :
    (∃ result, Yields (correct config tenant r id now).run s result s ∧
      ∀ entry lesson, result ≠ .ok (.logged entry lesson)) ∨
    (∃ result, Yields (correct config tenant r id now).run s result
        { s with log := s.log.append (logEntry tenant r id now) } ∧
      ∀ entry factor samples tier, result ≠ .ok (.logged entry (.updated factor samples tier))) ∨
    ∃ key sample next, s.quotes.get tenant r.quote = some key.ruleKey ∧ key.item = r.item ∧
      config.tuning.clamp (changeFactor r.oldQty r.newQty) = some sample ∧
      Sampling.observe ⟨tenant, key, sample, config.tuning, now⟩ (s.patterns.get tenant key) =
        some next ∧
      Yields (correct config tenant r id now).run s
        (.ok (.logged id (.updated next.factor next.samples
          (config.tuning.confidence next.samples).tier)))
        { s with
          log := s.log.append (logEntry tenant r id now), patterns := s.patterns.put next } := by
  rw [correct]
  cases r.fault? with
  | some fault => exact .inl ⟨_, (yields_throw _).bind_error, nofun⟩
  | none =>
      by_cases hsignificant : config.significance.isSignificant r.oldQty r.newQty
      · rw [if_pos hsignificant]
        have hlog : Yields (Action.ofStore (World.change .log fun s =>
            ({ s with log := s.log.append (logEntry tenant r id now) }, ()))).run s (.ok ())
            { s with log := s.log.append (logEntry tenant r id now) } :=
          Action.yields_ofStore (yields_change _ _)
        -- learning begins after the entry has been logged
        rcases learn_calm (s := { s with log := s.log.append (logEntry tenant r id now) }) tenant r
          now hplaced hattempts with
          ⟨result, hlearn, hresult⟩ | ⟨key, sample, next, hrule, hitem, hsample, hnext, hlearn⟩
        · refine .inr (.inl ?_)
          cases result with
          | error e => exact ⟨_, (yields_pure ()).bind (hlog.bind hlearn.bind_error), nofun⟩
          | ok lesson =>
              refine ⟨_, (yields_pure ()).bind (hlog.bind (hlearn.bind (yields_pure _))), ?_⟩
              intro entry factor samples tier h
              cases h
              exact hresult factor samples tier rfl
        · refine .inr (.inr ⟨key, sample, next, hrule, hitem, hsample, hnext, ?_⟩)
          exact (yields_pure ()).bind (hlog.bind (hlearn.bind (yields_pure _)))
      · rw [if_neg hsignificant]
        exact .inl ⟨_, (yields_pure ()).bind (yields_pure _), nofun⟩

/-- Forgetting removes the pattern of a key. -/
theorem forget_calm (tenant : TenantId) (key : PatternKey) (s : Stores) :
    Yields (forget tenant key).run s (.ok (s.patterns.delete tenant key).2)
      { s with patterns := (s.patterns.delete tenant key).1 } :=
  (Learning.forget_calm tenant key s).map _

/-- A rule is refused, or it is well formed and stored. -/
theorem putRule_calm (config : Config) (r : Rule) (s : Stores) :
    (∃ e, Yields (putRule config r).run s (.error e) s) ∨
      r.fault? = none ∧
        Yields (putRule config r).run s (.ok ()) { s with rules := s.rules.put r } := by
  rw [putRule]
  cases r.fault? with
  | some fault => exact .inl ⟨_, (yields_throw _).bind_error⟩
  | none =>
      cases brokenPart? config.limits r with
      | some part => exact .inl ⟨_, (yields_pure ()).bind (yields_throw _).bind_error⟩
      | none =>
          refine .inr ⟨rfl, (yields_pure ()).bind ((yields_pure ()).bind ?_)⟩
          exact Action.yields_ofStore (yields_change _ _)

theorem deleteRule_calm (tenant : TenantId) (key : RuleKey) (s : Stores) :
    Yields (deleteRule tenant key).run s (.ok (s.rules.delete tenant key).2)
      { s with rules := (s.rules.delete tenant key).1 } :=
  Action.yields_ofStore (yields_change _ _)

end Service
end Estimating
