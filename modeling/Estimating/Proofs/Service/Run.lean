/-
Runs of the service.

A run is a list of operations, each carried out on what the ones before it have left.  It begins
with stores that hold nothing and work throughout.

* `Operation`, `Operation.perform` — what can be asked of the service, entries of the catalog
  included, and what is done then;
* `Effect` — **all that an operation can do to the stores**, and `Operation.effect_calm`;
* `Service.run`, `Service.history` — the world after a run, and what has been seen of it: every
  operation with the world before it and its answer;
* `Service.exists_run_eq_of` — **the stores work throughout**, and
  `Service.exists_effect` — so the last operation of a run has one of the effects;
* `Service.fault?_of_mem_run` — **the rules stored are well formed** throughout, and
  `Service.isItemRef_of_mem_run` — so each of their items can be learned of.
-/
import Estimating.Proofs.Results
import Estimating.Proofs.Service.Calm
import Mathlib.Data.List.Induction

set_option autoImplicit false

namespace Estimating

/-! ### Operations -/

/-- What can be asked of the service or entered into its catalog. -/
inductive Operation
  | generate (tenant : TenantId) (key : RuleKey) (bindings : Bindings) (profile : String)
  | issueQuote (tenant : TenantId) (quote : QuoteId) (requirements : Requirements)
      (profile : String)
  | correct (tenant : TenantId) (r : Correction) (id : EntryId) (now : Timestamp)
  | corrections (tenant : TenantId) (quote : QuoteId)
  | insights (tenant : TenantId)
  | ruleSummary (tenant : TenantId) (key : RuleKey)
  | forget (tenant : TenantId) (key : PatternKey)
  | putRule (r : Rule)
  | deleteRule (tenant : TenantId) (key : RuleKey)
  | listRules (tenant : TenantId)
  | putProfile (tenant : TenantId) (p : PriceProfile)
  | putLabor (tenant : TenantId) (profile : String) (r : LaborRate)
  | putMaterial (tenant : TenantId) (profile : String) (m : Material)

/-- What an operation answers. -/
inductive Answer
  | report (r : Report)
  | outcome (o : CorrectionOutcome)
  | entries (es : List LogEntry)
  | insights (is : List Insight)
  | summary (s : RuleSummary)
  | rules (rs : List Rule)
  | existed (b : Bool)
  | done

/-- An entry into the catalog. -/
def Service.stock (change : Catalog → Catalog) : Action Unit :=
  Action.ofStore (World.change .catalog fun s => ({ s with catalog := change s.catalog }, ()))

namespace Operation

/-- Carries out an operation. -/
def perform (config : Config) : Operation → Action Answer
  | generate tenant key bindings profile =>
    .report <$> Service.generate config tenant key bindings profile
  | issueQuote tenant quote requirements profile =>
    .report <$> Service.issueQuote config tenant quote requirements profile
  | correct tenant r id now => .outcome <$> Service.correct config tenant r id now
  | corrections tenant quote => .entries <$> Service.corrections tenant quote
  | insights tenant => .insights <$> Service.insights config tenant
  | ruleSummary tenant key => .summary <$> Service.ruleSummary config tenant key
  | forget tenant key => .existed <$> Service.forget tenant key
  | putRule r => (fun _ => .done) <$> Service.putRule config r
  | deleteRule tenant key => .existed <$> Service.deleteRule tenant key
  | listRules tenant => .rules <$> Service.listRules tenant
  | putProfile tenant p => (fun _ => .done) <$> Service.stock fun c => c.putProfile tenant p
  | putLabor tenant profile r =>
    (fun _ => .done) <$> Service.stock fun c => c.putLabor tenant profile r
  | putMaterial tenant profile m =>
    (fun _ => .done) <$> Service.stock fun c => c.putMaterial tenant profile m

/-- The operations that change nothing, and the answers of the others when they change nothing. -/
def Keeps : Operation → Except ServiceError Answer → Prop
  | issueQuote .., result => ∃ e, result = .error e
  | correct .., result => ∀ entry lesson, result ≠ .ok (.outcome (.logged entry lesson))
  | putRule _, result => ∃ e, result = .error e
  | forget .., _ => False
  | deleteRule .., _ => False
  | putProfile .., _ => False
  | putLabor .., _ => False
  | putMaterial .., _ => False
  | _, _ => True

end Operation

/-- All that an operation can do to the stores. -/
inductive Effect (config : Config) (s : Stores) :
    Operation → Except ServiceError Answer → Stores → Prop
  | keep {op : Operation} {result : Except ServiceError Answer} (h : op.Keeps result) :
      Effect config s op result s
  | bind (tenant : TenantId) (quote : QuoteId) (requirements : Requirements) (profile : String)
      (report : Report) :
      Effect config s (.issueQuote tenant quote requirements profile) (.ok (.report report))
        { s with quotes := s.quotes.bind tenant quote requirements.ruleKey }
  | log {tenant : TenantId} {r : Correction} {id : EntryId} {now : Timestamp}
      {result : Except ServiceError Answer}
      (h : ∀ entry factor samples tier,
        result ≠ .ok (.outcome (.logged entry (.updated factor samples tier)))) :
      Effect config s (.correct tenant r id now) result
        { s with log := s.log.append (Service.logEntry tenant r id now) }
  | learn {tenant : TenantId} {r : Correction} {id : EntryId} {now : Timestamp}
      {key : PatternKey} {sample : Decimal} {next : Pattern}
      (hrule : s.quotes.get tenant r.quote = some key.ruleKey) (hitem : key.item = r.item)
      (hsample : config.tuning.clamp (changeFactor r.oldQty r.newQty) = some sample)
      (hnext : Sampling.observe ⟨tenant, key, sample, config.tuning, now⟩
        (s.patterns.get tenant key) = some next) :
      Effect config s (.correct tenant r id now)
        (.ok (.outcome (.logged id (.updated next.factor next.samples
          (config.tuning.confidence next.samples).tier))))
        { s with
          log := s.log.append (Service.logEntry tenant r id now)
          patterns := s.patterns.put next }
  | forget (tenant : TenantId) (key : PatternKey) :
      Effect config s (.forget tenant key) (.ok (.existed (s.patterns.delete tenant key).2))
        { s with patterns := (s.patterns.delete tenant key).1 }
  | putRule {r : Rule} (hfault : r.fault? = none) :
      Effect config s (.putRule r) (.ok .done) { s with rules := s.rules.put r }
  | deleteRule (tenant : TenantId) (key : RuleKey) :
      Effect config s (.deleteRule tenant key) (.ok (.existed (s.rules.delete tenant key).2))
        { s with rules := (s.rules.delete tenant key).1 }
  | putProfile (tenant : TenantId) (p : PriceProfile) :
      Effect config s (.putProfile tenant p) (.ok .done)
        { s with catalog := s.catalog.putProfile tenant p }
  | putLabor (tenant : TenantId) (profile : String) (r : LaborRate) :
      Effect config s (.putLabor tenant profile r) (.ok .done)
        { s with catalog := s.catalog.putLabor tenant profile r }
  | putMaterial (tenant : TenantId) (profile : String) (m : Material) :
      Effect config s (.putMaterial tenant profile m) (.ok .done)
        { s with catalog := s.catalog.putMaterial tenant profile m }

namespace Operation

open World Service

variable {config : Config} {s s' : Stores}

theorem yields_map {α : Type} {a : Action α} {r : Except ServiceError α} (g : α → Answer)
    (h : Yields a.run s r s') : Yields (g <$> a).run s (r.map g) s' := h.map_run g

/-- An operation that only reads keeps the stores. -/
theorem effect_of_reads {op : Operation} {α : Type} {a : Action α} {g : α → Answer}
    (h : Reads a.run) (hperform : op.perform config = g <$> a)
    (hkeeps : ∀ result, op.Keeps result) :
    ∃ result s', Yields (op.perform config).run s result s' ∧ Effect config s op result s' := by
  obtain ⟨r, hr⟩ := h s
  exact ⟨r.map g, s, hperform ▸ yields_map g hr, .keep (hkeeps _)⟩

/-- **An operation on stores that work has one of these effects.** -/
theorem effect_calm (op : Operation) (hplaced : s.patterns.Placed)
    (hattempts : config.tuning.maxAttempts ≠ 0) :
    ∃ result s', Yields (op.perform config).run s result s' ∧ Effect config s op result s' := by
  cases op with
  | generate tenant key bindings profile =>
      exact effect_of_reads (reads_generate config tenant key bindings profile) rfl fun _ => trivial
  | corrections tenant quote =>
      exact effect_of_reads (reads_corrections tenant quote) rfl fun _ => trivial
  | insights tenant => exact effect_of_reads (reads_insights config tenant) rfl fun _ => trivial
  | ruleSummary tenant key =>
      exact effect_of_reads (reads_ruleSummary config tenant key) rfl fun _ => trivial
  | listRules tenant => exact effect_of_reads (reads_listRules tenant) rfl fun _ => trivial
  | issueQuote tenant quote requirements profile =>
      rcases issueQuote_calm config tenant quote requirements profile s with
        ⟨e, h⟩ | ⟨report, _, h⟩
      · exact ⟨_, _, yields_map _ h, .keep ⟨e, rfl⟩⟩
      · exact ⟨_, _, yields_map _ h, .bind ..⟩
  | correct tenant r id now =>
      -- it is refused, or logged only, or logged and learned from
      rcases correct_calm tenant r id now hplaced hattempts with
        ⟨result, h, hresult⟩ | ⟨result, h, hresult⟩ | ⟨key, sample, next, hrule, hitem, hsample,
          hnext, h⟩
      · refine ⟨_, _, yields_map _ h, .keep ?_⟩
        intro entry lesson heq
        obtain ⟨outcome, rfl, ho⟩ := Except.map_eq_ok.1 heq
        cases ho
        exact hresult entry lesson rfl
      · refine ⟨_, _, yields_map _ h, .log ?_⟩
        intro entry factor samples tier heq
        obtain ⟨outcome, rfl, ho⟩ := Except.map_eq_ok.1 heq
        cases ho
        exact hresult entry factor samples tier rfl
      · exact ⟨_, _, yields_map _ h, .learn hrule hitem hsample hnext⟩
  | forget tenant key => exact ⟨_, _, yields_map _ (forget_calm tenant key s), .forget tenant key⟩
  | putRule r =>
      rcases putRule_calm config r s with ⟨e, h⟩ | ⟨hfault, h⟩
      · exact ⟨_, _, yields_map _ h, .keep ⟨e, rfl⟩⟩
      · exact ⟨_, _, yields_map _ h, .putRule hfault⟩
  | deleteRule tenant key =>
      exact ⟨_, _, yields_map _ (deleteRule_calm tenant key s), .deleteRule tenant key⟩
  | putProfile tenant p =>
      have h := Action.yields_ofStore (yields_change .catalog fun s =>
        ({ s with catalog := s.catalog.putProfile tenant p }, ())) (s := s)
      exact ⟨_, _, yields_map _ h, .putProfile tenant p⟩
  | putLabor tenant profile r =>
      have h := Action.yields_ofStore (yields_change .catalog fun s =>
        ({ s with catalog := s.catalog.putLabor tenant profile r }, ())) (s := s)
      exact ⟨_, _, yields_map _ h, .putLabor tenant profile r⟩
  | putMaterial tenant profile m =>
      have h := Action.yields_ofStore (yields_change .catalog fun s =>
        ({ s with catalog := s.catalog.putMaterial tenant profile m }, ())) (s := s)
      exact ⟨_, _, yields_map _ h, .putMaterial tenant profile m⟩

end Operation

/-- Every pattern stays under its own tenant and key. -/
theorem Effect.placed {config : Config} {s s' : Stores} {op : Operation}
    {result : Except ServiceError Answer} (h : Effect config s op result s')
    (hplaced : s.patterns.Placed) : s'.patterns.Placed := by
  cases h with
  | learn hrule hitem hsample hnext => exact hplaced.insert _ _
  | forget tenant key => exact hplaced.delete tenant key
  | _ => exact hplaced

/-- Rules that replace others keep nothing of them but the time of their creation. -/
theorem RuleStore.fault?_succeed (store : RuleStore) (r : Rule) :
    (store.succeed r).fault? = r.fault? := by
  unfold RuleStore.succeed
  cases store.get r.tenant r.key <;> rfl

/-- The items of well-formed rules have usable names. -/
theorem Rule.isItemRef_of_mem {r : Rule} {e : Entry} (hfault : r.fault? = none)
    (he : e ∈ r.entries) : isItemRef e.item = true := by
  have hentry : e.fault? = none := by
    unfold Rule.fault? at hfault
    split at hfault
    · cases hfault
    · exact List.findSome?_eq_none_iff.1 (Option.or_eq_none_iff.1 hfault).1 e he
  unfold Entry.fault? at hentry
  split at hentry
  · cases hentry
  · next hitem => simpa using hitem

/-- Every rule stored stays well formed. -/
theorem Effect.wellFormed {config : Config} {s s' : Stores} {op : Operation}
    {result : Except ServiceError Answer} (h : Effect config s op result s')
    (hrules : ∀ tenant key r, s.rules.get tenant key = some r → r.fault? = none) :
    ∀ tenant key r, s'.rules.get tenant key = some r → r.fault? = none := by
  cases h with
  | @putRule r hfault =>
      intro tenant key r' hr'
      rw [RuleStore.get_put] at hr'
      split at hr'
      · cases hr'
        rw [RuleStore.fault?_succeed, hfault]
      · exact hrules tenant key r' hr'
  | deleteRule tenant' key' =>
      intro tenant key r hr
      rw [RuleStore.get_delete] at hr
      split at hr
      · cases hr
      · exact hrules tenant key r hr
  | _ => exact hrules

/-! ### Runs -/

/-- What has been seen of an operation. -/
structure Event where
  /-- The world before the operation. -/
  before : World
  op : Operation
  answer : Except ServiceError Answer

namespace Service

/-- An operation in a world, as it is seen. -/
def see (config : Config) (w : World) (op : Operation) : Event :=
  ⟨w, op, ((op.perform config).run.run w).1⟩

/-- The world after an operation. -/
def after (config : Config) (w : World) (op : Operation) : World :=
  ((op.perform config).run.run w).2

/-- The world after a run. -/
def run (config : Config) (ops : List Operation) : World := ops.foldl (after config) (.of .empty)

/-- What is seen of the operations `ops` that begin in the world `w`. -/
def historyFrom (config : Config) : World → List Operation → List Event
  | _, [] => []
  | w, op :: ops => see config w op :: historyFrom config (after config w op) ops

/-- What is seen of a run. -/
def history (config : Config) (ops : List Operation) : List Event :=
  historyFrom config (.of .empty) ops

variable {config : Config}

theorem run_append_singleton (ops : List Operation) (op : Operation) :
    run config (ops ++ [op]) = after config (run config ops) op := by
  rw [run, List.foldl_append]
  rfl

theorem historyFrom_append (ops more : List Operation) : ∀ w,
    historyFrom config w (ops ++ more) =
      historyFrom config w ops ++ historyFrom config (ops.foldl (after config) w) more := by
  induction ops with
  | nil => intro w; rfl
  | cons op ops ih =>
      intro w
      rw [List.cons_append, historyFrom, ih, historyFrom, List.foldl_cons, List.cons_append]

theorem history_append_singleton (ops : List Operation) (op : Operation) :
    history config (ops ++ [op]) = history config ops ++ [see config (run config ops) op] :=
  historyFrom_append ops [op] _

/-- **The stores work throughout a run.** -/
theorem exists_run_eq_of (hattempts : config.tuning.maxAttempts ≠ 0) (ops : List Operation) :
    ∃ s, run config ops = .of s ∧ s.patterns.Placed := by
  induction ops using List.reverseRecOn with
  | nil => exact ⟨.empty, rfl, PatternStore.placed_empty⟩
  | append_singleton ops op ih =>
      obtain ⟨s, hs, hplaced⟩ := ih
      obtain ⟨result, s', hyields, heffect⟩ := op.effect_calm hplaced hattempts
      refine ⟨s', ?_, heffect.placed hplaced⟩
      rw [run_append_singleton, hs]
      exact congrArg Prod.snd hyields

/-- The last operation of a run has one of the effects listed. -/
theorem exists_effect (hattempts : config.tuning.maxAttempts ≠ 0) (ops : List Operation)
    (op : Operation) :
    ∃ s s', run config ops = .of s ∧ run config (ops ++ [op]) = .of s' ∧ s.patterns.Placed ∧
      Effect config s op (see config (run config ops) op).answer s' := by
  obtain ⟨s, hs, hplaced⟩ := exists_run_eq_of hattempts ops
  obtain ⟨result, s', hyields, heffect⟩ := op.effect_calm hplaced hattempts
  refine ⟨s, s', hs, ?_, hplaced, ?_⟩
  · rw [run_append_singleton, hs]
    exact congrArg Prod.snd hyields
  · have hanswer : (see config (run config ops) op).answer = result := by
      rw [hs]
      exact congrArg Prod.fst hyields
    rw [hanswer]
    exact heffect

/-- **The rules stored are well formed** throughout. -/
theorem fault?_of_mem_run (hattempts : config.tuning.maxAttempts ≠ 0) (ops : List Operation) :
    ∀ tenant key r, (run config ops).stores.rules.get tenant key = some r → r.fault? = none := by
  induction ops using List.reverseRecOn with
  | nil =>
      intro tenant key r hr
      have hnone : RuleStore.get ∅ tenant key = none := Std.ExtTreeMap.getElem?_empty
      cases hnone.symm.trans hr
  | append_singleton ops op ih =>
      obtain ⟨s, s', hs, hs', -, heffect⟩ := exists_effect hattempts ops op
      rw [hs] at ih
      rw [hs']
      exact heffect.wellFormed ih

/-- The items of the rules stored have usable names. -/
theorem isItemRef_of_mem_run (hattempts : config.tuning.maxAttempts ≠ 0) {ops : List Operation}
    {tenant : TenantId} {key : RuleKey} {rule : Rule} {e : Entry}
    (hrule : (run config ops).stores.rules.get tenant key = some rule) (he : e ∈ rule.entries) :
    isItemRef e.item = true :=
  Rule.isItemRef_of_mem (fault?_of_mem_run hattempts ops tenant key rule hrule) he

end Service
end Estimating
