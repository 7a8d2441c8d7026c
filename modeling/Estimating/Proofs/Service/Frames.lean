/-
What an operation leaves as it is.

Six operations write five stores, and some of them can still fail after they have written.  Over
stores that work each of them does all of its work or none.  The one exception is a correction that
a number too large has ended: its entry may have been logged by then.

* `Service.learn_error` — after an entry has been logged, only a number that is too large ends the
  operation;
* `Operation.Frame` — **what an operation may change**, given its answer;
* `Operation.frame_calm` — no operation on stores that work changes anything else;
* `Operation.isAborted`, `Event.isAborted` — that exception, and `Event.entry?` — the entry that an
  event is told to have logged;
* `Service.logged_run` — the log after a run is what was told to have been logged, and
  `Service.log_run_append` — it only grows;
* `Service.frame_run` — **every operation of a run has its frame, and the log only grows**.
-/
import Estimating.Proofs.Service.Feedback

set_option autoImplicit false

namespace Estimating

/-! ### Corrections -/

namespace Service

open World

variable {config : Config} {s : Stores}

theorem attempt_run {ε α : Type} (call : StateM World (Except ε α)) (w : World) :
    (Action.attempt call).run.run w = (.ok (call.run w).1, (call.run w).2) := rfl

/-- Learning fails for no other reason than a number that is too large. -/
theorem learn_error {tenant : TenantId} {r : Correction} {now : Timestamp} {w w' : World}
    {e : ServiceError} (h : (learn config tenant r now).run.run w = (.error e, w')) :
    e = .overflow := by
  unfold learn at h
  split at h
  · cases h
  · rw [ExceptT.run_bind_of_ok (attempt_run _ w)] at h
    split at h
    · cases h
    · cases h
    · unfold learnUnder at h
      split at h
      · cases h
      · rw [ExceptT.run_bind_of_ok (attempt_run _ _)] at h
        unfold lessonOf at h
        split at h
        · cases h
        · cases h
          rfl
        · cases h

end Service

/-! ### Frames -/

/-- The entry holds all of a request. -/
structure LogEntry.Carries (e : LogEntry) (tenant : TenantId) (r : Correction) (id : EntryId)
    (now : Timestamp) : Prop where
  id : e.id = id
  createdAt : e.createdAt = now
  tenant : e.tenant = tenant
  quote : e.quote = r.quote
  kind : e.kind = r.kind
  item : e.item = r.item
  oldQty : e.oldQty = r.oldQty
  newQty : e.newQty = r.newQty
  oldUnitPrice : e.oldUnitPrice = r.oldUnitPrice
  newUnitPrice : e.newUnitPrice = r.newUnitPrice
  reason : e.reason = r.reason

theorem LogEntry.Carries.eq {e : LogEntry} {tenant : TenantId} {r : Correction} {id : EntryId}
    {now : Timestamp} (h : e.Carries tenant r id now) : e = Service.logEntry tenant r id now := by
  cases e
  cases h
  simp_all [Service.logEntry]

/-- What an operation may change, given its answer: `s` are the stores before it and `s'` those
after it.  The only pattern that a correction can change is that of its item under the rule of its
quote. -/
def Operation.Frame (s s' : Stores) : Operation → Except ServiceError Answer → Prop
  | issueQuote tenant quote requirements _, .ok _ =>
    s' = { s with quotes := s'.quotes } ∧
      ∀ tenant' quote', s'.quotes.get tenant' quote' =
        if tenant = tenant' ∧ quote = quote' then some requirements.ruleKey
        else s.quotes.get tenant' quote'
  | correct tenant r _ now, .ok (.outcome (.logged id _)) =>
    ∃ e : LogEntry, e.Carries tenant r id now ∧
      s' = { s with log := s.log.append e, patterns := s'.patterns } ∧
      ∀ tenant' key', s'.patterns.get tenant' key' ≠ s.patterns.get tenant' key' →
        tenant' = tenant ∧ s.quotes.get tenant r.quote = some key'.ruleKey ∧ key'.item = r.item
  | forget tenant key, .ok _ =>
    s' = { s with patterns := s'.patterns } ∧
      ∀ tenant' key', s'.patterns.get tenant' key' =
        if tenant = tenant' ∧ key = key' then none else s.patterns.get tenant' key'
  | deleteRule tenant key, .ok _ =>
    s' = { s with rules := s'.rules } ∧
      ∀ tenant' key', s'.rules.get tenant' key' =
        if tenant = tenant' ∧ key = key' then none else s.rules.get tenant' key'
  | putRule r, .ok _ =>
    s' = { s with rules := s'.rules } ∧
      ∀ tenant' key', ¬ (r.tenant = tenant' ∧ r.key = key') →
        s'.rules.get tenant' key' = s.rules.get tenant' key'
  | putProfile .., .ok _ | putLabor .., .ok _ | putMaterial .., .ok _ =>
    s' = { s with catalog := s'.catalog }
  | _, _ => s' = s

/-- A number that is too large ended the correction.  An entry may have been logged by then. -/
def Operation.isAborted : Operation → Except ServiceError Answer → Bool
  | correct .., .error .overflow => true
  | _, _ => false

namespace Service

open World

variable {config : Config} {s : Stores}

/-- **A correction does all of its work or none**, unless it is aborted. -/
theorem frame_correct (tenant : TenantId) (r : Correction) (id : EntryId) (now : Timestamp)
    (hplaced : s.patterns.Placed) (hattempts : config.tuning.maxAttempts ≠ 0) :
    ∃ result s', Yields ((Operation.correct tenant r id now).perform config).run s result s' ∧
      ((Operation.correct tenant r id now).isAborted result = true ∨
        (Operation.correct tenant r id now).Frame s s' result) := by
  have hcarries : (logEntry tenant r id now).Carries tenant r id now :=
    ⟨rfl, rfl, rfl, rfl, rfl, rfl, rfl, rfl, rfl, rfl, rfl⟩
  have hlog : Yields (Action.ofStore (World.change .log fun s =>
      ({ s with log := s.log.append (logEntry tenant r id now) }, ()))).run s (.ok ())
      { s with log := s.log.append (logEntry tenant r id now) } :=
    Action.yields_ofStore (yields_change _ _)
  have hperform {result : Except ServiceError CorrectionOutcome} {s' : Stores}
      (h : Yields (correct config tenant r id now).run s result s') :
      Yields ((Operation.correct tenant r id now).perform config).run s (result.map .outcome) s' :=
    Operation.yields_map _ h
  unfold correct at hperform
  cases hfault : r.fault? with
  | some fault =>
      rw [hfault] at hperform
      exact ⟨_, _, hperform (yields_throw _).bind_error, .inr rfl⟩
  | none =>
      rw [hfault] at hperform
      by_cases hsignificant : config.significance.isSignificant r.oldQty r.newQty
      · rw [if_pos hsignificant] at hperform
        -- learning begins after the entry has been logged
        rcases learn_calm (s := { s with log := s.log.append (logEntry tenant r id now) }) tenant r
          now hplaced hattempts with
          ⟨result, hlearn, -⟩ | ⟨key, sample, next, hrule, hitem, -, hnext, hlearn⟩
        · cases result with
          | error e =>
              obtain rfl := learn_error hlearn
              exact ⟨_, _, hperform ((yields_pure ()).bind (hlog.bind hlearn.bind_error)), .inl rfl⟩
          | ok lesson =>
              refine ⟨_, _, hperform ((yields_pure ()).bind
                (hlog.bind (hlearn.bind (yields_pure _)))), .inr ⟨_, hcarries, rfl, ?_⟩⟩
              exact fun _ _ hchanged => absurd rfl hchanged
        · refine ⟨_, _, hperform ((yields_pure ()).bind
            (hlog.bind (hlearn.bind (yields_pure _)))), .inr ⟨_, hcarries, rfl, ?_⟩⟩
          intro tenant' key' hchanged
          have hplace : next.place = ⟨tenant, key⟩ := hplaced.observe hnext
          by_cases hsame : next.place = ⟨tenant', key'⟩
          · obtain ⟨rfl, rfl⟩ := Owned.mk.inj (hplace.symm.trans hsame)
            exact ⟨rfl, hrule, hitem⟩
          · exact absurd ((PatternStore.get_insert_versioned ..).trans (if_neg hsame)) hchanged
      · rw [if_neg hsignificant] at hperform
        exact ⟨_, _, hperform ((yields_pure ()).bind (yields_pure _)), .inr rfl⟩

end Service

namespace Operation

variable {config : Config} {s s' : Stores} {op : Operation} {result : Except ServiceError Answer}

/-- The effects of operations other than corrections are within their frames. -/
theorem frame_of_effect (h : Effect config s op result s')
    (hop : ∀ tenant r id now, op ≠ .correct tenant r id now) : op.Frame s s' result := by
  cases h with
  | keep hkeeps =>
      cases op with
      | correct tenant r id now => exact absurd rfl (hop tenant r id now)
      | issueQuote | putRule =>
          obtain ⟨e, rfl⟩ := hkeeps
          rfl
      | forget | deleteRule | putProfile | putLabor | putMaterial => exact hkeeps.elim
      | generate | corrections | insights | ruleSummary | listRules => rfl
  | bind tenant quote requirements profile report =>
      exact ⟨rfl, fun tenant' quote' => QuoteStore.get_bind ..⟩
  | log | learn => exact absurd rfl (hop _ _ _ _)
  | forget tenant key => exact ⟨rfl, fun tenant' key' => PatternStore.get_delete ..⟩
  | @putRule r hfault =>
      exact ⟨rfl, fun tenant' key' hother => (RuleStore.get_put ..).trans (if_neg hother)⟩
  | deleteRule tenant key => exact ⟨rfl, fun tenant' key' => RuleStore.get_delete ..⟩
  | putProfile | putLabor | putMaterial => rfl

/-- **No operation on stores that work goes beyond its frame**, unless it is an aborted
correction. -/
theorem frame_calm (op : Operation) (hplaced : s.patterns.Placed)
    (hattempts : config.tuning.maxAttempts ≠ 0) :
    ∃ result s', World.Yields (op.perform config).run s result s' ∧
      (op.isAborted result = true ∨ op.Frame s s' result) := by
  by_cases hop : ∃ tenant r id now, op = .correct tenant r id now
  · obtain ⟨tenant, r, id, now, rfl⟩ := hop
    exact Service.frame_correct tenant r id now hplaced hattempts
  · obtain ⟨result, s', hyields, heffect⟩ := op.effect_calm hplaced hattempts
    refine ⟨result, s', hyields, .inr (frame_of_effect heffect ?_)⟩
    rintro tenant r id now rfl
    exact hop ⟨tenant, r, id, now, rfl⟩

end Operation

/-! ### The log of a run -/

/-- The operation is a correction that was ended by a number that is too large. -/
def Event.isAborted (e : Event) : Bool := e.op.isAborted e.answer

/-- The entry that was told to have been logged. -/
def Event.entry? (e : Event) : Option LogEntry :=
  match e.op, e.answer with
  | .correct tenant r _ now, .ok (.outcome (.logged id _)) =>
    some (Service.logEntry tenant r id now)
  | _, _ => none

/-- An operation in its frame logs the entry that it tells, and no other. -/
theorem Operation.Frame.log_eq {s s' : Stores} {op : Operation}
    {result : Except ServiceError Answer} (h : op.Frame s s' result) (w : World)
    {es : List LogEntry} (hlog : s.log = .memory es) :
    s'.log = .memory (es ++ (Event.entry? ⟨w, op, result⟩).toList) := by
  have hsame (hs : s'.log = s.log) : s'.log = .memory (es ++ []) := by
    rw [hs, hlog, List.append_nil]
  cases op with
  | correct tenant r id now =>
      cases result with
      | error e => exact hsame (congrArg Stores.log h)
      | ok answer =>
          cases answer with
          | outcome o =>
              cases o with
              | ignored => exact hsame (congrArg Stores.log h)
              | logged id' lesson =>
                  obtain ⟨e, he, hs, -⟩ := h
                  rw [hs, he.eq, hlog]
                  rfl
          | _ => exact hsame (congrArg Stores.log h)
  | issueQuote | forget | deleteRule | putRule =>
      cases result with
      | error e => exact hsame (congrArg Stores.log h)
      | ok answer => exact hsame ((congrArg Stores.log h.1).trans rfl)
  | putProfile | putLabor | putMaterial =>
      cases result with
      | error e => exact hsame (congrArg Stores.log h)
      | ok answer => exact hsame ((congrArg Stores.log h).trans rfl)
  | generate | corrections | insights | ruleSummary | listRules =>
      exact hsame (congrArg Stores.log h)

namespace Service

variable {config : Config}

/-- The entries that were told to have been logged, the oldest first. -/
def logged (events : List Event) : List LogEntry := events.filterMap Event.entry?

/-- An operation of a run that is not aborted has its frame. -/
theorem frame_see (hattempts : config.tuning.maxAttempts ≠ 0) (ops : List Operation)
    (op : Operation) (h : (see config (run config ops) op).isAborted = false) :
    op.Frame (run config ops).stores (run config (ops ++ [op])).stores
      (see config (run config ops) op).answer := by
  obtain ⟨s, hs, hplaced⟩ := exists_run_eq_of hattempts ops
  obtain ⟨result, s', hyields, hframe⟩ := op.frame_calm hplaced hattempts
  have hanswer : (see config (run config ops) op).answer = result := by
    rw [hs]
    exact congrArg Prod.fst hyields
  have hafter : run config (ops ++ [op]) = .of s' := by
    rw [run_append_singleton, hs]
    exact congrArg Prod.snd hyields
  rw [Event.isAborted, hanswer] at h
  rw [hanswer, hafter, hs]
  exact hframe.resolve_left (ne_true_of_eq_false h)

/-- **The log after a run is what was told to have been logged**, if no correction was aborted. -/
theorem logged_run (hattempts : config.tuning.maxAttempts ≠ 0) (ops : List Operation)
    (h : ∀ e ∈ history config ops, e.isAborted = false) :
    (run config ops).stores.log = .memory (logged (history config ops)) := by
  induction ops using List.reverseRecOn with
  | nil => rfl
  | append_singleton ops op ih =>
      rw [history_append_singleton] at h ⊢
      have hlast := h _ (List.mem_append_right _ (List.mem_singleton.2 rfl))
      have hbefore := ih fun e he => h e (List.mem_append_left _ he)
      rw [(frame_see hattempts ops op hlast).log_eq (run config ops) hbefore, logged, logged,
        List.filterMap_append]
      rfl

/-- **The log only grows**, also where an operation is aborted. -/
theorem log_run_append (hattempts : config.tuning.maxAttempts ≠ 0) {ops : List Operation}
    {es : List LogEntry} (h : (run config ops).stores.log = .memory es) (more : List Operation) :
    ∃ es', (run config (ops ++ more)).stores.log = .memory (es ++ es') := by
  refine run_keeps hattempts (P := fun s => ∃ es', s.log = .memory (es ++ es'))
    (Q := fun _ => True) ?_ ⟨[], by rw [h, List.append_nil]⟩ more fun _ _ => trivial
  rintro s s' op result heffect - - ⟨es', hs⟩
  cases heffect with
  | log hresult => exact ⟨es' ++ [_], by rw [hs, ← List.append_assoc]; rfl⟩
  | learn hrule hitem hsample hnext => exact ⟨es' ++ [_], by rw [hs, ← List.append_assoc]; rfl⟩
  | _ => exact ⟨es', hs⟩

/-- The log is kept in memory throughout. -/
theorem exists_log_run (hattempts : config.tuning.maxAttempts ≠ 0) (ops : List Operation) :
    ∃ es, (run config ops).stores.log = .memory es := by
  have hnone : (run config []).stores.log = .memory [] := rfl
  exact log_run_append hattempts hnone ops

/-- What is listed of a log in memory. -/
theorem see_corrections (hattempts : config.tuning.maxAttempts ≠ 0) {ops : List Operation}
    {es : List LogEntry} (h : (run config ops).stores.log = .memory es) (tenant : TenantId)
    (quote : QuoteId) :
    (see config (run config ops) (.corrections tenant quote)).answer =
      .ok (.entries (es.filter (·.isOf tenant quote)).reverse) := by
  obtain ⟨s, hs, -⟩ := exists_run_eq_of hattempts ops
  rw [hs] at h
  have hlist : World.Yields (corrections tenant quote).run s
      (.ok (es.filter (·.isOf tenant quote)).reverse) s := by
    refine Action.yields_ofStore ?_
    have hask := World.yields_ask (s := s) .log fun s => s.log.ofQuote tenant quote
    rwa [show s.log = .memory es from h] at hask
  exact (see_of_yields (.corrections tenant quote) hs (Operation.yields_map .entries hlist)).1

/-- **Every operation of a run has its frame, and the log only grows.**  Whatever has happened
before, an operation that is no aborted correction changes no more than its frame says.  So the log
of an earlier moment begins the log of every later one; and as long as no correction is aborted, the
entries listed for a quote are those that were told to have been logged, the newest first. -/
theorem frame_run (config : Config) (hconfig : config.fault? = none) (ops : List Operation) :
    (∀ op, (see config (run config ops) op).isAborted = false →
      op.Frame (run config ops).stores (run config (ops ++ [op])).stores
        (see config (run config ops) op).answer) ∧
    (∀ more, ∃ es es', (run config ops).stores.log = .memory es ∧
      (run config (ops ++ more)).stores.log = .memory (es ++ es')) ∧
    ((∀ e ∈ history config ops, e.isAborted = false) → ∀ tenant quote,
      (see config (run config ops) (.corrections tenant quote)).answer =
        .ok (.entries ((logged (history config ops)).filter (·.isOf tenant quote)).reverse)) := by
  have hattempts := (Config.valid_tuning hconfig).maxAttempts_ne_zero
  refine ⟨frame_see hattempts ops, fun more => ?_, fun hcalm tenant quote => ?_⟩
  · obtain ⟨es, hes⟩ := exists_log_run hattempts ops
    obtain ⟨es', hmore⟩ := log_run_append hattempts hes more
    exact ⟨es, es', hes, hmore⟩
  · exact see_corrections hattempts (logged_run hattempts ops hcalm) tenant quote

/-- The correction of the first quote is listed, and it has changed nothing but the log and one
pattern. -/
theorem frame_run_firstQuote :
    Config.standard.fault? = none ∧ (∀ e ∈ history .standard firstQuote, e.isAborted = false) ∧
      ((see .standard (run .standard firstQuote) (.corrections "acme" "q1")).answer =
        .ok (.entries [logEntry "acme" (.ofQuantities "q1" .material "tile" (.whole 10) (.whole 11))
          default .epoch])) ∧
      (Operation.forget "acme" tiles).Frame (run .standard firstQuote).stores
        (run .standard (firstQuote ++ [.forget "acme" tiles])).stores
        (see .standard (run .standard firstQuote) (.forget "acme" tiles)).answer := by
  have hconfig : Config.standard.fault? = none := by decide
  have hcalm : ∀ e ∈ history .standard firstQuote, e.isAborted = false := by
    have hall : ((history .standard firstQuote).all fun e => !e.isAborted) = true := by
      decide +kernel
    simpa using hall
  have hlogged : logged (history .standard firstQuote) = [logEntry "acme"
      (.ofQuantities "q1" .material "tile" (.whole 10) (.whole 11)) default .epoch] := by
    decide +kernel
  obtain ⟨hframe, -, hlist⟩ := frame_run .standard hconfig firstQuote
  refine ⟨hconfig, hcalm, ?_, hframe _ (by decide +kernel)⟩
  rw [hlist hcalm, hlogged]
  rfl

end Service

end Estimating
