/-
What goes on where nothing can be learned.

Generation needs the store of patterns last, and goes on without it: what it answers is what it
would answer if nothing had been learned, but for a mark that tells so.  A correction is logged
before it is learned from, so that the store of patterns has no say in the log.

* `World.nextError?` — the error of the next call to a store;
* `World.withoutPatterns` — the world in which nothing has been learned, and the store works;
* `World.Keeps`, `World.Overlooks` — calls that leave a part of the world as it is, and calls that
  do not see the store of patterns, with their closure under sequence and iteration;
* `Report.ofDrafts_none` — a report without patterns is one with none, but that it says so;
* `Service.prepare` — what a report is made of, apart from what has been learned, and
  `Service.generate_without` — **generation where patterns cannot be read**;
* `Service.enter` — a correction as far as the log, and `Service.log_correct` — **what a correction
  logs**;
* `Service.correct_failed` — **a correction where patterns cannot be read**;
* `Service.fail_open` — **the service goes on where patterns cannot be read**.
-/
import Estimating.Proofs.Service.Frames
import Estimating.Proofs.Service.Generation

set_option autoImplicit false

namespace Estimating

/-! ### Calls to stores that may fail -/

namespace World

variable {α β γ ε : Type}

/-- The error of the next call to a store, if that fails. -/
def nextError? (w : World) (name : StoreName) : Option StoreError :=
  (w.outage name).bind fun o => if o.isOn then o.error? name else none

/-- The same world, in which nothing has been learned and the store of patterns works. -/
def withoutPatterns (w : World) : World where
  stores := { w.stores with patterns := ∅ }
  outage name := if name = .patterns then none else w.outage name

/-- A call to a store that does not fail is no matter of outages. -/
theorem meetOutage_of_none {w : World} {name : StoreName} (h : w.nextError? name = none) :
    (meetOutage name none).run w = (none, w) := by
  unfold nextError? at h
  unfold meetOutage
  simp only [StateT.run]
  cases ho : w.outage name with
  | none => rfl
  | some o =>
      rw [ho, Option.bind_some] at h
      by_cases hon : o.isOn = true
      · rw [if_pos hon] at h
        simp only [hon, h, Option.none_or, ite_self]
      · simp only [hon, Bool.false_eq_true, if_false]

theorem meetOutage_of_some {w : World} {name : StoreName} {e : StoreError}
    (h : w.nextError? name = some e) (conflict : Option StoreError) :
    ∃ o, (meetOutage name conflict).run w = (some e, w.setOutage name o) := by
  unfold nextError? at h
  unfold meetOutage
  simp only [StateT.run]
  cases ho : w.outage name with
  | none =>
      rw [ho] at h
      cases h
  | some o =>
      rw [ho, Option.bind_some] at h
      by_cases hon : o.isOn = true
      · rw [if_pos hon] at h
        simp only [hon, if_true, h, Option.some_or]
        exact ⟨_, rfl⟩
      · rw [if_neg hon] at h
        cases h

theorem ask_of_none {w : World} {name : StoreName} (h : w.nextError? name = none)
    (read : Stores → Except StoreError α) : (ask name read).run w = (read w.stores, w) := by
  rw [ask, StateT.run_bind, meetOutage_of_none h]
  rfl

theorem ask_of_some {w : World} {name : StoreName} {e : StoreError}
    (h : w.nextError? name = some e) (read : Stores → Except StoreError α) :
    ∃ w', (ask name read).run w = (.error e, w') ∧ w'.stores = w.stores := by
  obtain ⟨o, hmeet⟩ := meetOutage_of_some h none
  refine ⟨w.setOutage name o, ?_, rfl⟩
  rw [ask, StateT.run_bind, hmeet]
  rfl

theorem change_of_none {w : World} {name : StoreName} (h : w.nextError? name = none)
    (f : Stores → Stores × α) :
    (change name f).run w = (.ok (f w.stores).2, { w with stores := (f w.stores).1 }) := by
  rw [change, StateT.run_bind, meetOutage_of_none h]
  rfl

/-! ### Parts of the world that are left alone -/

/-- A call leaves what is seen of the world as it is. -/
def Keeps (view : World → β) (call : StateM World α) : Prop := ∀ w, view (call.run w).2 = view w

section Keeps

variable {view : World → β}

theorem keeps_pure (x : α) : Keeps view (pure x : StateM World α) := fun _ => rfl

theorem Keeps.andThen {call : StateM World α} {f : α → StateM World γ} (h : Keeps view call)
    (hf : ∀ x, Keeps view (f x)) : Keeps view (call >>= f) := by
  intro w
  rw [StateT.run_bind]
  exact (hf _ _).trans (h w)

theorem Keeps.map {call : StateM World α} (h : Keeps view call) (g : α → γ) :
    Keeps view (g <$> call) := by
  intro w
  rw [StateT.run_map]
  exact h w

theorem Keeps.bind {a : ExceptT ε (StateM World) α} {f : α → ExceptT ε (StateM World) γ}
    (h : Keeps view a.run) (hf : ∀ x, Keeps view (f x).run) : Keeps view (a >>= f).run := by
  rw [ExceptT.run_bind]
  refine h.andThen fun r => ?_
  cases r with
  | ok x => exact hf x
  | error e => exact keeps_pure _

end Keeps

/-- Reading changes no store. -/
theorem keeps_ask (view : Stores → β) (name : StoreName)
    (read : Stores → Except StoreError α) : Keeps (fun w => view w.stores) (ask name read) := by
  intro w
  obtain ⟨r, w', hrun, hstores, -⟩ := ask_run name read w
  rw [hrun]
  exact congrArg view hstores

/-- Writing a pattern does not touch the log. -/
theorem keeps_writePattern (p : Pattern) (expected : Nat) :
    Keeps (fun w => w.stores.log) (writePattern p expected) := by
  have hmeet (conflict : Option StoreError) :
      Keeps (fun w => w.stores.log) (meetOutage .patterns conflict) :=
    fun w => congrArg Stores.log (meetOutage_stores .patterns conflict w)
  refine (hmeet _).andThen fun cause? => ?_
  cases cause? with
  | some e => exact keeps_pure _
  | none =>
      intro w
      simp only [StateT.run_modifyGet]
      split
      · rfl
      · rfl

/-- A call does not see the store of patterns: where nothing has been learned it does the same. -/
structure Overlooks (call : StateM World α) : Prop where
  run_eq : ∀ w, call.run w.withoutPatterns = ((call.run w).1, (call.run w).2.withoutPatterns)
  keeps : Keeps (fun w => w.nextError? .patterns) call

theorem overlooks_pure (x : α) : Overlooks (pure x : StateM World α) := ⟨fun _ => rfl, keeps_pure x⟩

theorem Overlooks.andThen {call : StateM World α} {f : α → StateM World γ} (h : Overlooks call)
    (hf : ∀ x, Overlooks (f x)) : Overlooks (call >>= f) := by
  refine ⟨fun w => ?_, h.keeps.andThen fun x => (hf x).keeps⟩
  rw [StateT.run_bind, StateT.run_bind, h.run_eq]
  exact (hf _).run_eq _

theorem Overlooks.map {call : StateM World α} (h : Overlooks call) (g : α → γ) :
    Overlooks (g <$> call) := by
  refine ⟨fun w => ?_, h.keeps.map g⟩
  rw [StateT.run_map, StateT.run_map, h.run_eq]
  rfl

theorem Overlooks.bind {a : ExceptT ε (StateM World) α} {f : α → ExceptT ε (StateM World) γ}
    (h : Overlooks a.run) (hf : ∀ x, Overlooks (f x).run) : Overlooks (a >>= f).run := by
  rw [ExceptT.run_bind]
  refine h.andThen fun r => ?_
  cases r with
  | ok x => exact hf x
  | error e => exact overlooks_pure _

theorem Overlooks.mapM {f : α → ExceptT ε (StateM World) γ} (hf : ∀ x, Overlooks (f x).run) :
    ∀ xs : List α, Overlooks (xs.mapM f).run := by
  intro xs
  induction xs with
  | nil => exact overlooks_pure _
  | cons x xs ih =>
      rw [List.mapM_cons]
      exact (hf x).bind fun y => ih.bind fun ys => overlooks_pure _

theorem withoutPatterns_setOutage (w : World) {name : StoreName} (hname : name ≠ .patterns)
    (o : Outage) : (w.setOutage name o).withoutPatterns = w.withoutPatterns.setOutage name o := by
  unfold withoutPatterns setOutage
  congr 1
  funext n
  by_cases hn : n = .patterns
  · simp [hn, Ne.symm hname]
  · simp [hn]

/-- A call to another store meets the same outages. -/
theorem overlooks_meetOutage {name : StoreName} (hname : name ≠ .patterns)
    (conflict : Option StoreError) : Overlooks (meetOutage name conflict) := by
  have houtage (w : World) : w.withoutPatterns.outage name = w.outage name := if_neg hname
  have hother (w : World) (o : Outage) :
      (w.setOutage name o).nextError? .patterns = w.nextError? .patterns := by
    simp only [nextError?, setOutage, if_neg (Ne.symm hname)]
  unfold meetOutage
  constructor
  · intro w
    simp only [StateT.run, houtage]
    split
    · rfl
    · split
      · split
        · rw [withoutPatterns_setOutage w hname]
        · rfl
      · rfl
  · intro w
    simp only [StateT.run]
    split
    · rfl
    · split
      · split
        · exact hother w _
        · rfl
      · rfl

/-- Reading another store answers the same. -/
theorem overlooks_ask {name : StoreName} (hname : name ≠ .patterns)
    {read : Stores → Except StoreError α}
    (hread : ∀ s : Stores, read { s with patterns := ∅ } = read s) : Overlooks (ask name read) := by
  refine (overlooks_meetOutage hname none).andThen fun cause? => ?_
  cases cause? with
  | some e => exact overlooks_pure _
  | none =>
      refine ⟨fun w => ?_, fun _ => rfl⟩
      show (read w.withoutPatterns.stores, w.withoutPatterns) = (read w.stores, w.withoutPatterns)
      rw [← hread w.stores]
      rfl

/-- So does changing another store. -/
theorem overlooks_change {name : StoreName} (hname : name ≠ .patterns) {f : Stores → Stores × α}
    (hf : ∀ s : Stores, f { s with patterns := ∅ } = ({ (f s).1 with patterns := ∅ }, (f s).2)) :
    Overlooks (change name f) := by
  refine (overlooks_meetOutage hname none).andThen fun cause? => ?_
  cases cause? with
  | some e => exact overlooks_pure _
  | none =>
      refine ⟨fun w => ?_, fun _ => rfl⟩
      show (Except.ok (f w.withoutPatterns.stores).2,
        { w.withoutPatterns with stores := (f w.withoutPatterns.stores).1 }) = _
      show (Except.ok (f { w.stores with patterns := ∅ }).2,
        { w.withoutPatterns with stores := (f { w.stores with patterns := ∅ }).1 }) = _
      rw [hf]
      rfl

end World

/-! ### Generation -/

section Reports

variable {defaults : PriceDefaults} {policy : Policy} {tenant : TenantId} {key : RuleKey}
  {profile : String} {drafts : List Draft} {described : Option PriceProfile}

/-- The report, with word that what was learned could not be read. -/
def Report.withoutTuning (r : Report) : Report := { r with tuningAvailable := false }

/-- A report without patterns is one with none, but that it says so. -/
theorem Report.ofDrafts_none :
    ofDrafts defaults policy tenant key profile drafts described none =
      (ofDrafts defaults policy tenant key profile drafts described (some [])).map
        Report.withoutTuning := by
  unfold ofDrafts
  cases hitems : tuneAll drafts [] policy with
  | none =>
      simp only [Option.getD_none, Option.getD_some, hitems]
      rfl
  | some items =>
      simp only [Option.getD_none, Option.getD_some, hitems, Option.bind_eq_bind, Option.bind_some]
      cases Totals.ofItems items (terms defaults described).2 <;> rfl

theorem Report.tuningAvailable_of_ofDrafts {patterns : Option (List Pattern)} {r : Report}
    (h : ofDrafts defaults policy tenant key profile drafts described patterns = some r) :
    r.tuningAvailable = patterns.isSome := by
  obtain ⟨items, -, h⟩ := Option.bind_eq_some_iff.1 h
  obtain ⟨totals, -, h⟩ := Option.bind_eq_some_iff.1 h
  cases h
  rfl

end Reports

namespace Learning

variable {w : World} (tenant : TenantId) (key : RuleKey)

/-- Where patterns cannot be read, those of a rule cannot be. -/
theorem ofRule_of_failed {cause : StoreError} (h : w.nextError? .patterns = some cause) :
    ∃ w', (ofRule tenant key).run.run w = (.error (.store cause), w') := by
  obtain ⟨w', hask, -⟩ := World.ask_of_some h fun s : Stores => .ok (s.patterns.list tenant)
  have hall : (all tenant).run.run w = (.error (.store cause), w') := by
    show (Except.mapError LearningError.store <$> World.ask .patterns _).run w = _
    rw [StateT.run_map, hask]
    rfl
  exact ⟨w', ExceptT.run_bind_of_error hall⟩

/-- Where nothing has been learned, nothing is read. -/
theorem ofRule_withoutPatterns (w : World) :
    (ofRule tenant key).run.run w.withoutPatterns = (.ok [], w.withoutPatterns) := by
  have hworks : w.withoutPatterns.nextError? .patterns = none := rfl
  have hask := World.ask_of_none hworks fun s : Stores => .ok (s.patterns.list tenant)
  have hall : (all tenant).run.run w.withoutPatterns = (.ok [], w.withoutPatterns) := by
    show (Except.mapError LearningError.store <$> World.ask .patterns _).run _ = _
    rw [StateT.run_map, hask]
    rfl
  exact ExceptT.run_bind_of_ok hall

end Learning

namespace Service

open World

variable {config : Config} {tenant : TenantId} {bindings : Bindings} {profile : String}

theorem overlooks_findRule (key : RuleKey) : Overlooks (findRule tenant key).run := by
  refine Overlooks.bind ((overlooks_ask (by decide) fun _ => rfl).map _) fun found => ?_
  cases found with
  | none => exact overlooks_pure _
  | some rule => exact overlooks_pure _

theorem overlooks_draft (e : Entry) : Overlooks (draft config tenant bindings profile e).run := by
  refine Overlooks.bind ((overlooks_ask (by decide) fun _ => rfl).map _) fun lookup => ?_
  cases Draft.ofEntry config.limits config.pricing bindings e lookup with
  | none => exact overlooks_pure _
  | some d => exact overlooks_pure _

theorem overlooks_describe : Overlooks (describe tenant profile).run :=
  Overlooks.bind ((overlooks_ask (by decide) fun _ => rfl).map _) fun _ => overlooks_pure _

/-- What a report is made of, apart from what has been learned. -/
def prepare (config : Config) (tenant : TenantId) (key : RuleKey) (bindings : Bindings)
    (profile : String) : Action (List Draft × Option PriceProfile) := do
  let rule ← findRule tenant key
  let drafts ← draftAll config tenant bindings profile rule.entries
  return (drafts, ← describe tenant profile)

/-- What has been learned is asked for last. -/
theorem generate_eq (config : Config) (tenant : TenantId) (key : RuleKey) (bindings : Bindings)
    (profile : String) :
    generate config tenant key bindings profile =
      prepare config tenant key bindings profile >>= fun made =>
        Action.attempt (Learning.ofRule tenant key).run >>= fun patterns =>
          Action.ofDecimal (Report.ofDrafts config.pricing config.tuning tenant key profile
            made.1 made.2 patterns.toOption) := by
  simp only [generate, prepare, bind_assoc, pure_bind]

theorem overlooks_prepare (key : RuleKey) :
    Overlooks (prepare config tenant key bindings profile).run :=
  (overlooks_findRule key).bind fun rule =>
    (Overlooks.mapM overlooks_draft rule.entries).bind fun _ =>
      overlooks_describe.bind fun _ => overlooks_pure _

/-- **Generation where patterns cannot be read**: it answers what it answers where nothing has been
learned, but for the mark. -/
theorem generate_without (config : Config) (tenant : TenantId) (key : RuleKey)
    (bindings : Bindings) (profile : String) {w : World} {cause : StoreError}
    (h : w.nextError? .patterns = some cause) :
    ((generate config tenant key bindings profile).run.run w).1 =
        (((generate config tenant key bindings profile).run.run w.withoutPatterns).1.map
          Report.withoutTuning) ∧
      ∀ report, ((generate config tenant key bindings profile).run.run w.withoutPatterns).1 =
        .ok report → report.tuningAvailable = true := by
  have hprepare : Overlooks (prepare config tenant key bindings profile).run :=
    overlooks_prepare key
  have hmade := hprepare.run_eq w
  have hkept := hprepare.keeps w
  rw [generate_eq]
  rcases hrun : (prepare config tenant key bindings profile).run.run w with ⟨e | made, w'⟩
  · rw [hrun] at hmade
    rw [ExceptT.run_bind_of_error hrun, ExceptT.run_bind_of_error hmade]
    refine ⟨rfl, fun report hreport => ?_⟩
    cases hreport
  · rw [hrun] at hmade hkept
    obtain ⟨w₁, hlearned⟩ := Learning.ofRule_of_failed tenant key (hkept.trans h)
    have hnone := Learning.ofRule_withoutPatterns tenant key w'
    have hfailed : (Action.attempt (Learning.ofRule tenant key).run).run.run w' =
        (.ok (.error (.store cause)), w₁) := by
      rw [attempt_run, hlearned]
    have hempty : (Action.attempt (Learning.ofRule tenant key).run).run.run w'.withoutPatterns =
        (.ok (.ok []), w'.withoutPatterns) := by
      rw [attempt_run, hnone]
    rw [ExceptT.run_bind_of_ok hrun, ExceptT.run_bind_of_ok hmade, ExceptT.run_bind_of_ok hfailed,
      ExceptT.run_bind_of_ok hempty]
    show (Action.ofDecimal (Report.ofDrafts _ _ _ _ _ _ _ none) |>.run.run w₁).1 =
        ((Action.ofDecimal (Report.ofDrafts _ _ _ _ _ _ _ (some [])) |>.run.run _).1.map _) ∧
      ∀ report, (Action.ofDecimal (Report.ofDrafts _ _ _ _ _ _ _ (some [])) |>.run.run _).1 = _ → _
    rw [Report.ofDrafts_none]
    cases hreport : Report.ofDrafts config.pricing config.tuning tenant key profile made.1 made.2
        (some []) with
    | none =>
        refine ⟨rfl, fun report h => ?_⟩
        cases h
    | some report =>
        refine ⟨rfl, fun report' h => ?_⟩
        cases h
        exact Report.tuningAvailable_of_ofDrafts hreport

/-! ### Corrections -/

section Log

variable {tenant : TenantId} {r : Correction} {id : EntryId} {now : Timestamp}

/-- A recording does not touch the log, however often it is tried. -/
theorem keeps_recordFrom (q : Sampling) (attempts : Nat) :
    Keeps (fun w => w.stores.log) (q.recordFrom readPattern writePattern attempts) := by
  induction attempts with
  | zero => exact keeps_pure _
  | succ attempts ih =>
      refine (keeps_ask Stores.log .patterns _).andThen fun answer => ?_
      cases answer with
      | error e => exact keeps_pure _
      | ok current =>
          dsimp only
          cases q.prepare current with
          | none => exact keeps_pure _
          | some write =>
              refine (keeps_writePattern write.1 write.2).andThen fun written => ?_
              cases Sampling.conclude written with
              | some result => exact keeps_pure _
              | none => exact ih

theorem keeps_record (policy : Policy) (key : PatternKey) (old new : Decimal) :
    Keeps (fun w => w.stores.log) (Learning.record policy tenant key old new now).run := by
  refine Keeps.bind ?_ fun sample => keeps_recordFrom _ _
  cases policy.clamp (changeFactor old new) with
  | none => exact keeps_pure _
  | some sample => exact keeps_pure _

/-- Learning does not touch the log. -/
theorem keeps_learn : Keeps (fun w => w.stores.log) (learn config tenant r now).run := by
  unfold learn
  split
  · exact keeps_pure _
  · refine Keeps.bind ((keeps_ask Stores.log .quotes _).map _) fun answer => ?_
    split
    · exact keeps_pure _
    · exact keeps_pure _
    · unfold learnUnder
      split
      · exact keeps_pure _
      · refine Keeps.bind ((keeps_record _ _ _ _).map _) fun result => ?_
        unfold lessonOf
        split <;> exact keeps_pure _

/-- A correction as far as the log: it is refused, logged or ignored. -/
def enter (config : Config) (tenant : TenantId) (r : Correction) (id : EntryId)
    (now : Timestamp) : Action Unit := do
  Action.refuse r.fault? .invalidInput
  if config.significance.isSignificant r.oldQty r.newQty then
    Action.ofStore (World.change .log fun s =>
      ({ s with log := s.log.append (logEntry tenant r id now) }, ()))

theorem overlooks_enter : Overlooks (enter config tenant r id now).run := by
  refine Overlooks.bind ?_ fun _ => ?_
  · cases r.fault? with
    | none => exact overlooks_pure _
    | some fault => exact overlooks_pure _
  · split
    · exact (overlooks_change (by decide) fun _ => rfl).map _
    · exact overlooks_pure _

/-- What is logged is settled before anything is learned. -/
theorem log_correct_eq (w : World) :
    ((correct config tenant r id now).run.run w).2.stores.log =
      ((enter config tenant r id now).run.run w).2.stores.log := by
  unfold correct enter
  cases r.fault? with
  | some fault => rfl
  | none =>
      by_cases hsignificant : config.significance.isSignificant r.oldQty r.newQty = true
      · simp only [hsignificant, if_true]
        have hrefuse : (Action.refuse (none : Option InputError) .invalidInput).run.run w =
            (.ok (), w) := rfl
        rw [ExceptT.run_bind_of_ok hrefuse, ExceptT.run_bind_of_ok hrefuse]
        rcases hrun : (Action.ofStore (change .log fun s =>
          ({ s with log := s.log.append (logEntry tenant r id now) }, ()))).run.run w with
          ⟨e | _, w'⟩
        · rw [ExceptT.run_bind_of_error hrun]
        · rw [ExceptT.run_bind_of_ok hrun]
          exact (Keeps.bind keeps_learn fun _ => keeps_pure _) w'
      · simp only [hsignificant]
        rfl

/-- **What a correction logs** does not depend on the store of patterns, nor on its outages. -/
theorem log_correct {v w : World} (h : v.withoutPatterns = w.withoutPatterns) :
    ((correct config tenant r id now).run.run v).2.stores.log =
      ((correct config tenant r id now).run.run w).2.stores.log := by
  have henter (w : World) : ((enter config tenant r id now).run.run w).2.stores.log =
      ((enter config tenant r id now).run.run w.withoutPatterns).2.stores.log := by
    have hoverlooks : Overlooks (enter config tenant r id now).run := overlooks_enter
    rw [hoverlooks.run_eq w]
    rfl
  rw [log_correct_eq, log_correct_eq, henter v, henter w, h]

end Log

section Failed

variable {tenant : TenantId} {r : Correction} {w : World} {cause : StoreError}

/-- Where patterns cannot be read, nothing is learned for an item. -/
theorem record_of_failed {policy : Policy} (hpolicy : policy.Valid) (tenant : TenantId)
    (key : PatternKey) (old new : Decimal) (now : Timestamp)
    (h : w.nextError? .patterns = some cause) :
    ∃ w', (Learning.record policy tenant key old new now).run.run w =
        (.error (.store cause), w') ∧ w'.stores = w.stores := by
  have hattempts := hpolicy.maxAttempts_ne_zero
  obtain ⟨w', hask, hstores⟩ := ask_of_some h fun s : Stores => .ok (s.patterns.get tenant key)
  refine ⟨w', ?_, hstores⟩
  have hsample : (Learning.ofDecimal (policy.clamp (changeFactor old new))).run.run w =
      (.ok ((changeFactor old new).clamp policy.minFactor policy.maxFactor), w) := by
    rw [hpolicy.clamp_eq]
    rfl
  rw [Learning.record, ExceptT.run_bind_of_ok hsample]
  cases hmax : policy.maxAttempts with
  | zero => exact absurd hmax hattempts
  | succ attempts =>
      show (Sampling.recordFrom readPattern writePattern _ policy.maxAttempts).run w = _
      rw [hmax, Sampling.recordFrom, StateT.run_bind, readPattern, hask]
      rfl

/-- Where patterns cannot be read, a correction of a bound quote teaches nothing. -/
theorem learn_of_failed {ruleKey : RuleKey} (hpolicy : config.tuning.Valid)
    (hkind : r.kind ≠ .custom) (hquotes : w.nextError? .quotes = none)
    (hbound : w.stores.quotes.get tenant r.quote = some ruleKey)
    (h : w.nextError? .patterns = some cause) (now : Timestamp) :
    ∃ message w', (learn config tenant r now).run.run w = (.ok (.failed message), w') ∧
      w'.stores = w.stores ∧
      ∀ key, PatternKey.make ruleKey r.item = .ok key →
        message = (LearningError.store cause).message := by
  have hask : (Action.attempt (ask .quotes fun s => .ok (s.quotes.get tenant r.quote))).run.run w =
      (.ok (.ok (some ruleKey)), w) := by
    rw [attempt_run, ask_of_none hquotes, hbound]
  rw [learn, if_neg hkind, ExceptT.run_bind_of_ok hask]
  show ∃ message w', (learnUnder config tenant r ruleKey now).run.run w = _ ∧ _
  unfold learnUnder
  cases hmake : PatternKey.make ruleKey r.item with
  | error e => exact ⟨e.message, w, rfl, rfl, fun key hkey => by cases hkey⟩
  | ok key =>
      obtain ⟨w', hrecord, hstores⟩ :=
        record_of_failed hpolicy tenant key r.oldQty r.newQty now h
      have hattempt : (Action.attempt
          (Learning.record config.tuning tenant key r.oldQty r.newQty now).run).run.run w =
            (.ok (.error (.store cause)), w') := by
        rw [attempt_run, hrecord]
      exact ⟨_, w', ExceptT.run_bind_of_ok hattempt, hstores, fun key' _ => rfl⟩

/-- **A correction where patterns cannot be read**: it is logged, and the outcome tells that nothing
was learned. -/
theorem correct_failed {ruleKey : RuleKey} (hpolicy : config.tuning.Valid)
    (hfault : r.fault? = none)
    (hsignificant : config.significance.isSignificant r.oldQty r.newQty = true)
    (hkind : r.kind ≠ .custom) (hlog : w.nextError? .log = none)
    (hquotes : w.nextError? .quotes = none)
    (hbound : w.stores.quotes.get tenant r.quote = some ruleKey)
    (h : w.nextError? .patterns = some cause) (id : EntryId) (now : Timestamp) :
    ∃ message w', (correct config tenant r id now).run.run w =
        (.ok (.logged id (.failed message)), w') ∧
      w'.stores = { w.stores with log := w.stores.log.append (logEntry tenant r id now) } ∧
      ∀ key, PatternKey.make ruleKey r.item = .ok key →
        message = (LearningError.store cause).message := by
  let logged : World :=
    { w with stores := { w.stores with log := w.stores.log.append (logEntry tenant r id now) } }
  have hrefuse : (Action.refuse r.fault? .invalidInput).run.run w = (.ok (), w) := by
    rw [hfault]
    rfl
  have happend : (Action.ofStore (change .log fun s =>
      ({ s with log := s.log.append (logEntry tenant r id now) }, ()))).run.run w =
        (.ok (), logged) := by
    show (Except.mapError ServiceError.store <$> change .log _).run w = _
    rw [StateT.run_map, change_of_none hlog]
    rfl
  obtain ⟨message, w', hlearn, hstores, hmessage⟩ :=
    learn_of_failed (w := logged) hpolicy hkind hquotes hbound h now
  refine ⟨message, w', ?_, hstores, hmessage⟩
  rw [correct, ExceptT.run_bind_of_ok hrefuse, if_pos hsignificant,
    ExceptT.run_bind_of_ok happend, ExceptT.run_bind_of_ok hlearn]
  rfl

end Failed

/-! ### Both together -/

/-- **The service goes on where patterns cannot be read.**  Whatever else works or fails, generation
answers exactly what it answers where nothing has been learned, errors included, only that a report
says that it is untuned.  A valid correction of a bound quote that is large enough is logged, and
its outcome tells of the failure; and whatever store of patterns there is, working or not, the log
is the same afterwards. -/
theorem fail_open (config : Config) :
    (∀ (tenant : TenantId) (key : RuleKey) (bindings : Bindings) (profile : String) (w : World)
      (cause : StoreError), w.nextError? .patterns = some cause →
      ((generate config tenant key bindings profile).run.run w).1 =
          (((generate config tenant key bindings profile).run.run w.withoutPatterns).1.map
            Report.withoutTuning) ∧
        ∀ report, ((generate config tenant key bindings profile).run.run w.withoutPatterns).1 =
          .ok report → report.tuningAvailable = true) ∧
    (config.fault? = none →
      ∀ (tenant : TenantId) (r : Correction) (id : EntryId) (now : Timestamp) (w : World)
        (ruleKey : RuleKey) (cause : StoreError), r.fault? = none →
        config.significance.isSignificant r.oldQty r.newQty = true → r.kind ≠ .custom →
        w.nextError? .log = none → w.nextError? .quotes = none →
        w.stores.quotes.get tenant r.quote = some ruleKey → w.nextError? .patterns = some cause →
        ∃ message w', (correct config tenant r id now).run.run w =
            (.ok (.logged id (.failed message)), w') ∧
          w'.stores = { w.stores with log := w.stores.log.append (logEntry tenant r id now) } ∧
          (∀ key, PatternKey.make ruleKey r.item = .ok key →
            message = (LearningError.store cause).message) ∧
          ∀ v : World, v.withoutPatterns = w.withoutPatterns →
            ((correct config tenant r id now).run.run v).2.stores.log = w'.stores.log) := by
  refine ⟨fun tenant key bindings profile w cause h =>
    generate_without config tenant key bindings profile h, ?_⟩
  intro hconfig tenant r id now w ruleKey cause hfault hsignificant hkind hlog hquotes hbound h
  obtain ⟨message, w', hrun, hstores, hmessage⟩ := correct_failed (Config.valid_tuning hconfig)
    hfault hsignificant hkind hlog hquotes hbound h id now
  refine ⟨message, w', hrun, hstores, hmessage, fun v hv => ?_⟩
  rw [log_correct hv, hrun]

/-- A first correction has been learned from; then the store of patterns fails for good. -/
def offline : World where
  stores := (run .standard firstQuote).stores
  outage name := if name = .patterns then some ⟨.unavailable, none⟩ else none

/-- Tiles are still quoted, and a second correction is still logged. -/
theorem fail_open_offline :
    offline.nextError? .patterns = some (.unavailable "patterns offline") ∧
      (∃ report, ((generate .standard "acme" ⟨.bathroom, .basic⟩ tenSquareMeters
          "standard").run.run offline.withoutPatterns).1 = .ok report ∧
        ((generate .standard "acme" ⟨.bathroom, .basic⟩ tenSquareMeters "standard").run.run
          offline).1 = .ok report.withoutTuning) ∧
      ∃ w', (correct .standard "acme" (.ofQuantities "q1" .material "tile" (.whole 10)
          (.whole 12)) default .epoch).run.run offline =
            (.ok (.logged default
              (.failed "Store error: Store unavailable: patterns offline")), w') ∧
        w'.stores.patterns.get "acme" tiles = offline.stores.patterns.get "acme" tiles := by
  have hfailed : offline.nextError? .patterns = some (.unavailable "patterns offline") := by rfl
  obtain ⟨hgenerate, hcorrect⟩ := fail_open .standard
  refine ⟨hfailed, ?_, ?_⟩
  · have hsome : ((generate .standard "acme" ⟨.bathroom, .basic⟩ tenSquareMeters
        "standard").run.run offline.withoutPatterns).1.toOption.isSome := by decide +kernel
    have hwithout := (hgenerate "acme" ⟨.bathroom, .basic⟩ tenSquareMeters "standard" offline _
      hfailed).1
    cases hreport : ((generate .standard "acme" ⟨.bathroom, .basic⟩ tenSquareMeters
        "standard").run.run offline.withoutPatterns).1 with
    | error e =>
        rw [hreport] at hsome
        cases hsome
    | ok report =>
        rw [hreport] at hwithout
        exact ⟨report, rfl, hwithout⟩
  · obtain ⟨message, w', hrun, hstores, hmessage, -⟩ := hcorrect (by decide) "acme"
      (.ofQuantities "q1" .material "tile" (.whole 10) (.whole 12)) default .epoch offline
      ⟨.bathroom, .basic⟩ _ (by decide +kernel) (by decide +kernel) (by decide) (by rfl) (by rfl)
      (by decide +kernel) hfailed
    have htext : (LearningError.store (.unavailable "patterns offline")).message =
        "Store error: Store unavailable: patterns offline" := by decide
    rw [hmessage tiles (by rfl), htext] at hrun
    refine ⟨w', hrun, ?_⟩
    rw [hstores]

end Service
end Estimating
