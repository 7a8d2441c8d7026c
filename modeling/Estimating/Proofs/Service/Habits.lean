/-
Rounds of quoting and correcting.

A user has a habit: quote after quote is issued for the same requirements, and the line of one item
is corrected to the same quantity each time.

* `Service.correct_remembers` — a correction is refused or ignored, or it is one edit more;
* `Habit`, `Habit.round`, `Habit.after` — what the user does, once and repeatedly;
* `Habit.replayQuote_world` — a round is what the replay of a quote with one edit does;
* `Habit.Founded` — the rule of the quotes has the item, with a value; a round does not change this;
* `Habit.round_calm` — **what a round does** where all stores work;
* `Habit.exists_repeated` — the edits that are learned in rounds;
* `Habit.factor_after` — **how long the factor learned first is kept**;
* `Habit.tilingFactor_moves` — it may not be kept at all.
-/
import Estimating.CommandLine.Run
import Estimating.Proofs.Learning.Repetition

set_option autoImplicit false

namespace Estimating

/-! ### The program -/

namespace CommandLine

theorem perform_run {α : Type} (action : Action α) (s : Session) :
    (perform action).run.run s =
      ((action.run.run s.world).1.mapError Failure.ofService,
        { s with world := (action.run.run s.world).2 }) := by
  have hget : (get : Step Session).run.run s = (.ok s, s) := rfl
  have hrun : action.run.run s.world = action.run s.world := rfl
  rw [perform, ExceptT.run_bind_of_ok hget, hrun]
  rcases action.run s.world with ⟨_ | x, w⟩ <;> rfl

/-- An edit of a line that is there is a correction. -/
theorem makeEdit_world {fresh : Fresh} {config : Config} {tenant : TenantId} {quote : QuoteId}
    {report : Report} {edit : Replay.Edit} {line : Item}
    (hline : (report.items.find? fun i => i.kind == edit.kind && i.item == edit.item) = some line)
    (s : Session) :
    ((makeEdit fresh config tenant quote report edit).run.run s).2.world =
      ((Service.correct config tenant
        { Correction.ofQuantities quote edit.kind edit.item line.qty edit.newQty with
          reason := edit.reason } (fresh.entry s.entries) fresh.now).run.run s.world).2 := by
  have htake : (takeEntry fresh).run.run s =
      (.ok (fresh.entry s.entries), { s with entries := s.entries + 1 }) := rfl
  rw [makeEdit, hline]
  simp only
  rw [ExceptT.run_bind_of_ok htake, ExceptT.run_bind_pure_snd, perform_run]

/-- The only edit of a quote is all that changes a store. -/
theorem mapM_singleton_snd {α β : Type} (f : α → Step (Option β)) (x : α) (s : Session) :
    (([x].mapM f >>= fun rs => pure (rs.filterMap id) : Step (List β)).run.run s).2 =
      ((f x).run.run s).2 := by
  rw [List.mapM_cons, List.mapM_nil, ExceptT.run_bind_pure_snd]
  exact ExceptT.run_bind_pure_snd (f x) (fun r => [r]) s

end CommandLine

/-! ### Corrections -/

namespace Service

/-- A correction of a quote that is bound to a rule key: if it is logged, it is significant, and the
pattern knows of one edit more. -/
theorem correct_remembers {config : Config} (hpolicy : config.tuning.Valid) {s : Stores}
    {key : PatternKey} {r : Correction} (tenant : TenantId) (id : EntryId) (now : Timestamp)
    (hplaced : s.patterns.Placed) (hkind : r.kind ≠ .custom)
    (hrule : s.quotes.get tenant r.quote = some key.ruleKey) (hitem : key.item = r.item) :
    (∃ result log, World.Yields (correct config tenant r id now).run s result
        { s with log } ∧ ∀ entry lesson, result ≠ .ok (.logged entry lesson)) ∨
    ∃ log patterns p, World.Yields (correct config tenant r id now).run s
        (.ok (.logged id (.updated p.factor p.samples (config.tuning.confidence p.samples).tier)))
        { s with log, patterns } ∧
      config.significance.isSignificant r.oldQty r.newQty = true ∧ patterns.Placed ∧
      patterns.get tenant key = some p ∧
      ∀ es, Remembers config.tuning es (s.patterns.get tenant key) →
        Remembers config.tuning (es ++ [(r.oldQty, r.newQty)]) (some p) := by
  rcases correct_bound_calm tenant id now hplaced hpolicy.maxAttempts_ne_zero hkind hrule
    hitem with hnone | ⟨sample, next, hsignificant, hsample, hnext, hcorrect⟩
  · exact .inl hnone
  · have hplace : next.place = ⟨tenant, key⟩ := hplaced.observe hnext
    obtain ⟨htenant, hkey⟩ := Owned.mk.inj hplace
    refine .inr ⟨_, _, next.versioned (s.patterns.versionAt tenant key + 1), hcorrect,
      hsignificant, hplaced.insert next _, ?_, fun es hes => ?_⟩
    · rw [PatternStore.put, PatternStore.get_insert_versioned, if_pos hplace, htenant, hkey]
    · exact Remembers.learn (s := s) (q := ⟨tenant, key, sample, config.tuning, now⟩)
        hpolicy hsample hes hnext

end Service

/-! ### Rounds -/

/-- A line that is corrected to one quantity in every quote for the same requirements.  Every item of
a rule that is stored can be the one corrected (`Service.isItemRef_of_mem_run`). -/
structure Habit where
  tenant : TenantId
  requirements : Requirements
  profile : String
  edit : Replay.Edit
  isItemRef_item : isItemRef edit.item = true

/-- What differs between rounds. -/
structure Turn where
  quote : QuoteId
  entry : EntryId
  now : Timestamp

namespace Habit

/-- The key under which the corrections are learned. -/
def key (h : Habit) : PatternKey := ⟨h.requirements.ruleKey, h.edit.item, h.isItemRef_item⟩

/-- The correction of a line. -/
def correction (h : Habit) (quote : QuoteId) (line : Item) : Correction :=
  { Correction.ofQuantities quote h.edit.kind h.edit.item line.qty h.edit.newQty with
    reason := h.edit.reason }

/-- One round: a quote is issued, and its line of the item is corrected.  Without such a line there
is nothing to correct. -/
def round (config : Config) (h : Habit) (t : Turn) : Action (Option CorrectionOutcome) := do
  let report ← Service.issueQuote config h.tenant t.quote h.requirements h.profile
  match report.items.find? fun i => i.kind == h.edit.kind && i.item == h.edit.item with
  | none => return none
  | some line =>
    let outcome ← Service.correct config h.tenant (h.correction t.quote line) t.entry t.now
    return some outcome

/-- The world after rounds; one that fails is followed by the next one all the same. -/
def after (config : Config) (h : Habit) (w : World) (turns : List Turn) : World :=
  turns.foldl (fun w t => ((h.round config t).run.run w).2) w

theorem after_append (config : Config) (h : Habit) (w : World) (turns more : List Turn) :
    h.after config w (turns ++ more) = h.after config (h.after config w turns) more :=
  List.foldl_append

/-- A round is what the replay of a quote with one edit does. -/
theorem replayQuote_world (config : Config) (h : Habit) (fresh : CommandLine.Fresh)
    (profile : String) (quote : QuoteId) (session : CommandLine.Session) :
    ((CommandLine.replayQuote fresh config h.tenant profile
      ⟨quote, h.requirements, some h.profile, [h.edit]⟩).run.run session).2.world =
    ((h.round config ⟨quote, fresh.entry session.entries, fresh.now⟩).run.run session.world).2 := by
  have hissue := CommandLine.perform_run
    (Service.issueQuote config h.tenant quote h.requirements h.profile) session
  rw [round]
  simp only [CommandLine.replayQuote, Option.getD_some]
  rcases hrun : (Service.issueQuote config h.tenant quote h.requirements h.profile).run.run
    session.world with ⟨_ | report, w⟩
  · rw [hrun] at hissue
    rw [ExceptT.run_bind_of_error hrun, ExceptT.run_bind_of_error hissue]
  · rw [hrun] at hissue
    rw [ExceptT.run_bind_of_ok hrun, ExceptT.run_bind_of_ok hissue,
      CommandLine.mapM_singleton_snd]
    cases hline : report.items.find? fun i => i.kind == h.edit.kind && i.item == h.edit.item with
    | none =>
        rw [CommandLine.makeEdit, hline]
        rfl
    | some line =>
        rw [CommandLine.makeEdit_world hline]
        simp only
        rw [ExceptT.run_bind_pure_snd]
        rfl

/-! ### One round -/

/-- The rule of the quotes has the item, and its expression has a value. -/
structure Founded (config : Config) (h : Habit) (base : Decimal) (s : Stores) : Prop where
  placed : s.patterns.Placed
  entry : ∃ rule e, s.rules.get h.tenant h.requirements.ruleKey = some rule ∧ e ∈ rule.entries ∧
    e.kind = h.edit.kind ∧ e.item = h.edit.item ∧
    e.value config.limits h.requirements.bindings = .ok base

variable {config : Config} {h : Habit} {base factor : Decimal} {s : Stores}

/-- An item of a rule is labor or a material. -/
theorem Founded.kind_ne (hf : h.Founded config base s) : h.edit.kind ≠ .custom := by
  obtain ⟨rule, e, -, he, hkind, -, -⟩ := hf.entry
  exact hkind ▸ Rule.kind_ne_of_mem he

/-- A round changes no rule, so the item stays where it is. -/
theorem Founded.of_rules_eq (hf : h.Founded config base s) {s' : Stores}
    (hrules : s'.rules = s.rules) (hplaced : s'.patterns.Placed) : h.Founded config base s' :=
  ⟨hplaced, hrules ▸ hf.entry⟩

/-- The line of the item reports the value, tuned. -/
theorem Founded.reported_eq (hf : h.Founded config base s) {report : Report} {line : Item}
    (hreport : World.Yields (Service.generate config h.tenant h.requirements.ruleKey
      h.requirements.bindings h.profile).run s (.ok report) s)
    (hline : (report.items.find? fun i => i.kind == h.edit.kind && i.item == h.edit.item) =
      some line) :
    config.tuning.reported base (s.patterns.get h.tenant h.key) = some line.qty := by
  obtain ⟨rule, e, hrule, he, hkind, hitem, hvalue⟩ := hf.entry
  rw [← hkind, ← hitem] at hline
  exact Service.generate_reports h.key hf.placed hrule he hitem hvalue hreport hline

/-- **What a round does.**  Either nothing is logged and nothing learned; or the quantity that the
line reports is corrected, and the pattern knows of one edit more. -/
theorem round_calm (hpolicy : config.tuning.Valid) (hf : h.Founded config base s) (t : Turn) :
    (∃ result s', World.Yields (h.round config t).run s result s' ∧ h.Founded config base s' ∧
      s'.patterns = s.patterns ∧ ∀ entry lesson, result ≠ .ok (some (.logged entry lesson))) ∨
    ∃ qty s' p, World.Yields (h.round config t).run s (.ok (some (.logged t.entry
        (.updated p.factor p.samples (config.tuning.confidence p.samples).tier)))) s' ∧
      h.Founded config base s' ∧
      config.tuning.reported base (s.patterns.get h.tenant h.key) = some qty ∧
      config.significance.isSignificant qty h.edit.newQty = true ∧
      s'.patterns.get h.tenant h.key = some p ∧
      ∀ es, Service.Remembers config.tuning es (s.patterns.get h.tenant h.key) →
        Service.Remembers config.tuning (es ++ [(qty, h.edit.newQty)]) (some p) := by
  rw [round]
  rcases Service.issueQuote_calm config h.tenant t.quote h.requirements h.profile s with
    ⟨e, hissue⟩ | ⟨report, hreport, hissue⟩
  · exact .inl ⟨_, s, hissue.bind_error, hf, rfl, nofun⟩
  · let bound : Stores := { s with
      quotes := s.quotes.bind h.tenant t.quote h.requirements.ruleKey }
    have hbound : bound.quotes.get h.tenant t.quote = some h.key.ruleKey :=
      (QuoteStore.get_bind ..).trans (if_pos ⟨rfl, rfl⟩)
    cases hline : report.items.find? fun i => i.kind == h.edit.kind && i.item == h.edit.item with
    | none =>
        refine .inl ⟨.ok none, bound, hissue.bind ?_, hf.of_rules_eq rfl hf.placed, rfl, nofun⟩
        simp only [hline]
        exact World.yields_pure none
    | some line =>
        have hqty := hf.reported_eq hreport hline
        rcases Service.correct_remembers (s := bound) (r := h.correction t.quote line) hpolicy
          h.tenant t.entry t.now hf.placed hf.kind_ne hbound rfl with
          ⟨result, log, hcorrect, hresult⟩ |
          ⟨log, patterns, p, hcorrect, hsignificant, hplaced, hp, hlearned⟩
        · refine .inl ⟨result.map some, { bound with log }, hissue.bind ?_,
            hf.of_rules_eq rfl hf.placed, rfl, ?_⟩
          · simp only [hline]
            cases result with
            | error e => exact hcorrect.bind_error
            | ok outcome => exact hcorrect.bind (World.yields_pure (some outcome))
          · rintro entry lesson heq
            obtain ⟨outcome, rfl, houtcome⟩ := Except.map_eq_ok.1 heq
            cases houtcome
            exact hresult entry lesson rfl
        · refine .inr ⟨line.qty, { bound with log, patterns }, p, hissue.bind ?_,
            hf.of_rules_eq rfl hplaced, hqty, hsignificant, hp, hlearned⟩
          simp only [hline]
          exact hcorrect.bind (World.yields_pure _)

/-! ### All rounds -/

theorem after_of_yields {result : Except ServiceError (Option CorrectionOutcome)} {s' : Stores}
    {t : Turn} (hround : World.Yields (h.round config t).run s result s') (turns : List Turn) :
    h.after config (.of s) (t :: turns) = h.after config (.of s') turns :=
  congrArg (h.after config · turns) (congrArg Prod.snd hround)

/-- Rounds go on with the edits of the rounds before. -/
theorem exists_repeated (hpolicy : config.tuning.Valid) (turns : List Turn) :
    ∀ {s : Stores} {es : List Edit}, h.Founded config base s →
      Repeated config base h.edit.newQty es (s.patterns.get h.tenant h.key) →
      ∃ s' more, h.after config (.of s) turns = .of s' ∧ h.Founded config base s' ∧
        more.length ≤ turns.length ∧
        Repeated config base h.edit.newQty (es ++ more) (s'.patterns.get h.tenant h.key) := by
  induction turns with
  | nil =>
      intro s es hf hes
      exact ⟨s, [], rfl, hf, Nat.le_refl _, by rwa [List.append_nil]⟩
  | cons t turns ih =>
      intro s es hf hes
      -- a round adds one edit or none, and the others go on from there
      rcases h.round_calm hpolicy hf t with ⟨result, s₁, hround, hf₁, hsame, -⟩ |
        ⟨qty, s₁, p, hround, hf₁, hqty, hsignificant, hp, hlearned⟩
      · rw [← hsame] at hes
        obtain ⟨s', more, hafter, hf', hlength, hmore⟩ := ih hf₁ hes
        refine ⟨s', more, ?_, hf', Nat.le_succ_of_le hlength, hmore⟩
        rw [after_of_yields hround, hafter]
      · have hes₁ : Repeated config base h.edit.newQty (es ++ [(qty, h.edit.newQty)])
            (s₁.patterns.get h.tenant h.key) := by
          rw [hp]
          exact hes.edit hqty hsignificant (hlearned es hes.remembers)
        obtain ⟨s', more, hafter, hf', hlength, hmore⟩ := ih hf₁ hes₁
        refine ⟨s', (qty, h.edit.newQty) :: more, ?_, hf', Nat.succ_le_succ hlength, ?_⟩
        · rw [after_of_yields hround, hafter]
        · rwa [List.append_assoc] at hmore

/-- What has been logged is learned and stays the factor, for a while or for good. -/
theorem exists_pattern_of_logged (hpolicy : config.tuning.Valid) (hf : h.Founded config base s)
    (hnone : s.patterns.get h.tenant h.key = none)
    (hfactor : config.tuning.sample base h.edit.newQty = some factor) (hsize : factor.size < 2 ^ 95)
    {turns more : List Turn} {t : Turn} {entry : EntryId} {lesson : Lesson}
    (hlogged : ((h.round config t).run.run (h.after config (.of s) turns)).1 =
      .ok (some (.logged entry lesson)))
    (hwhile : (turns ++ t :: more).length < 2 * max 1 config.tuning.minSamples ∧
        2 * ((turns ++ t :: more).length - max 1 config.tuning.minSamples) <
          config.tuning.windowSize ∨
      config.Settled base h.edit.newQty factor) :
    ∃ p, (h.after config (.of s) (turns ++ t :: more)).stores.patterns.get h.tenant h.key =
      some p ∧ p.factor = factor := by
  have hstart : Repeated config base h.edit.newQty [] (s.patterns.get h.tenant h.key) := by
    rw [hnone]
    exact .none
  obtain ⟨s₁, es₁, hafter₁, hf₁, hlength₁, hes₁⟩ := exists_repeated hpolicy turns hf hstart
  rw [hafter₁] at hlogged
  rcases h.round_calm hpolicy hf₁ t with ⟨result, s₂, hround, -, -, hresult⟩ |
    ⟨qty, s₂, p, hround, hf₂, hqty, hsignificant, hp, hlearned⟩
  · exact absurd ((congrArg Prod.fst hround).symm.trans hlogged) (hresult entry lesson)
  · have hes₂ : Repeated config base h.edit.newQty ([] ++ es₁ ++ [(qty, h.edit.newQty)])
        (s₂.patterns.get h.tenant h.key) := by
      rw [hp]
      exact hes₁.edit hqty hsignificant (hlearned _ hes₁.remembers)
    obtain ⟨s₃, es₃, hafter₃, -, hlength₃, hes₃⟩ := exists_repeated hpolicy more hf₂ hes₂
    rw [after_append, hafter₁, after_of_yields hround, hafter₃]
    show ∃ p, s₃.patterns.get h.tenant h.key = some p ∧ p.factor = factor
    cases hget : s₃.patterns.get h.tenant h.key with
    | none =>
        -- there is a pattern as soon as anything has been learned
        rw [hget] at hes₃
        have hnil := hes₃.remembers
        simp [Service.Remembers] at hnil
    | some p =>
        rw [hget] at hes₃
        refine ⟨p, rfl, hes₃.factor_eq hpolicy hfactor hsize ?_⟩
        refine hwhile.imp_left fun hfew => ?_
        simp only [List.length_append, List.length_cons, List.length_nil] at hfew ⊢
        omega

/-- While the factor stays what it is, the edits after the first ones are made to the value tuned by
it. -/
theorem exists_edits_of_stays (hpolicy : config.tuning.Valid) (hf : h.Founded config base s)
    (hnone : s.patterns.get h.tenant h.key = none) {qty : Decimal}
    (hreach : config.tuning.minSamples ≤ config.tuning.maxSamples)
    (hqty : config.tuning.tuned base factor = some qty) {turns : List Turn}
    (hlogged : ∀ before t, before ++ [t] <+: turns → ∃ entry lesson,
      ((h.round config t).run.run (h.after config (.of s) before)).1 =
        .ok (some (.logged entry lesson)))
    (hstays : ∀ before p, before <+: turns →
      (h.after config (.of s) before).stores.patterns.get h.tenant h.key = some p →
      p.factor = factor) :
    ∀ before, before <+: turns → ∃ s' es, h.after config (.of s) before = .of s' ∧
      h.Founded config base s' ∧ es.length = before.length ∧
      Service.Remembers config.tuning es (s'.patterns.get h.tenant h.key) ∧
      ∀ e ∈ es.drop (max 1 config.tuning.minSamples), e = (qty, h.edit.newQty) := by
  intro before
  -- on the last round, since the rounds before it are those of a shorter run
  induction before using List.reverseRecOn with
  | nil =>
      intro _
      refine ⟨s, [], rfl, hf, rfl, ?_, by simp⟩
      rw [hnone]
      rfl
  | append_singleton before t ih =>
      intro hturns
      have hbefore := (List.prefix_append before [t]).trans hturns
      obtain ⟨s₁, es, hafter, hf₁, hlength, hes, hdrop⟩ := ih hbefore
      obtain ⟨entry, lesson, hlogged⟩ := hlogged before t hturns
      rw [hafter] at hlogged
      rcases h.round_calm hpolicy hf₁ t with ⟨result, s₂, hround, -, -, hresult⟩ |
        ⟨qty', s₂, p, hround, hf₂, hqty', -, hp, hlearned⟩
      · exact absurd ((congrArg Prod.fst hround).symm.trans hlogged) (hresult entry lesson)
      · refine ⟨s₂, es ++ [(qty', h.edit.newQty)], ?_, hf₂, ?_, hp ▸ hlearned es hes, ?_⟩
        · rw [after_append, hafter, after_of_yields hround]
          rfl
        · rw [List.length_append, List.length_append, hlength]
          rfl
        · intro e he
          rcases Nat.lt_or_ge es.length (max 1 config.tuning.minSamples) with hfew | hmany
          · -- these are first edits only
            rw [List.drop_eq_nil_of_le (by rw [List.length_append]; exact hfew)] at he
            cases he
          · have hstay (p₁ : Pattern) (hp₁ : s₁.patterns.get h.tenant h.key = some p₁) :
                p₁.factor = factor := hstays before p₁ hbefore (by rw [hafter]; exact hp₁)
            rw [hes.reported_eq_tuned hmany hreach hstay, hqty, Option.some_inj] at hqty'
            rw [List.drop_append_of_le_length hmany] at he
            rcases List.mem_append.1 he with he | he
            · exact hdrop e he
            · rw [List.mem_singleton.1 he, hqty']

/-- If the edits after the first ones make another sample, the factor does not stay. -/
theorem exists_moved (hpolicy : config.tuning.Valid) (hf : h.Founded config base s)
    (hnone : s.patterns.get h.tenant h.key = none) {qty sample : Decimal}
    (hreach : config.tuning.minSamples ≤ config.tuning.maxSamples)
    (hqty : config.tuning.tuned base factor = some qty)
    (hsample : config.tuning.sample qty h.edit.newQty = some sample) (hother : sample ≠ factor)
    (hsize : sample.size < 2 ^ 95) {turns : List Turn}
    (hmany : max 1 config.tuning.minSamples + config.tuning.windowSize ≤ turns.length)
    (hlogged : ∀ before t, before ++ [t] <+: turns → ∃ entry lesson,
      ((h.round config t).run.run (h.after config (.of s) before)).1 =
        .ok (some (.logged entry lesson))) :
    ∃ before p, before <+: turns ∧
      (h.after config (.of s) before).stores.patterns.get h.tenant h.key = some p ∧
      p.factor ≠ factor := by
  by_contra hno
  have hstays : ∀ before p, before <+: turns →
      (h.after config (.of s) before).stores.patterns.get h.tenant h.key = some p →
      p.factor = factor := by
    intro before p hbefore hp
    by_contra hne
    exact hno ⟨before, p, hbefore, hp, hne⟩
  obtain ⟨s', es, hafter, -, hlength, hes, hdrop⟩ :=
    exists_edits_of_stays hpolicy hf hnone hreach hqty hlogged hstays turns (List.prefix_refl _)
  cases hget : s'.patterns.get h.tenant h.key with
  | none =>
      rw [hget] at hes
      obtain rfl : es = [] := hes
      rw [← hlength] at hmany
      exact absurd hmany (by simp)
  | some p =>
      rw [hget] at hes
      have hlast : p.factor = sample := by
        refine hes.factor_eq_of_last hpolicy hsample hsize (fun e he => ?_) (hlength ▸ hmany)
        rw [hdrop e he]
        exact hsample
      have hstay := hstays turns p (List.prefix_refl _) (by rw [hafter]; exact hget)
      exact hother (hlast.symm.trans hstay)

/-- **How long the factor learned first is kept.**  Nothing has been learned for an item, and a user
begins to correct its line to one quantity in quote after quote.  As soon as one of these
corrections has been logged, the factor is the sample of the value and the quantity.  It is kept as
long as the corrections made before the factor is used are the more part of the window; and it is
kept for good if the factor is never used, or if the corrections of the tuned quantity are too small
to be logged or teach the same factor.  If they teach another one and all of them are logged, the
factor does not stay. -/
theorem factor_after (config : Config) (hconfig : config.fault? = none) (ops : List Operation)
    (h : Habit) (rule : Rule) (e : Entry) (base factor : Decimal)
    (hrule : (Service.run config ops).stores.rules.get h.tenant h.requirements.ruleKey = some rule)
    (he : e ∈ rule.entries) (hkind : e.kind = h.edit.kind) (hitem : e.item = h.edit.item)
    (hvalue : e.value config.limits h.requirements.bindings = .ok base)
    (hnone : (Service.run config ops).stores.patterns.get h.tenant h.key = none)
    (hfactor : config.tuning.sample base h.edit.newQty = some factor)
    (hsize : factor.size < 2 ^ 95) :
    (∀ turns t more entry lesson,
      ((h.round config t).run.run (h.after config (Service.run config ops) turns)).1 =
        .ok (some (.logged entry lesson)) →
      ((turns ++ t :: more).length < 2 * max 1 config.tuning.minSamples ∧
          2 * ((turns ++ t :: more).length - max 1 config.tuning.minSamples) <
            config.tuning.windowSize ∨
        config.Settled base h.edit.newQty factor) →
      ∃ p, (h.after config (Service.run config ops) (turns ++ t :: more)).stores.patterns.get
        h.tenant h.key = some p ∧ p.factor = factor) ∧
    ∀ turns qty sample, config.tuning.minSamples ≤ config.tuning.maxSamples →
      config.tuning.tuned base factor = some qty →
      config.tuning.sample qty h.edit.newQty = some sample → sample ≠ factor →
      sample.size < 2 ^ 95 →
      max 1 config.tuning.minSamples + config.tuning.windowSize ≤ turns.length →
      (∀ before t, before ++ [t] <+: turns → ∃ entry lesson,
        ((h.round config t).run.run (h.after config (Service.run config ops) before)).1 =
          .ok (some (.logged entry lesson))) →
      ∃ before p, before <+: turns ∧
        (h.after config (Service.run config ops) before).stores.patterns.get h.tenant h.key =
          some p ∧ p.factor ≠ factor := by
  have hpolicy := Config.valid_tuning hconfig
  obtain ⟨s, hs, hplaced⟩ := Service.exists_run_eq_of hpolicy.maxAttempts_ne_zero ops
  rw [hs] at hrule hnone ⊢
  have hf : h.Founded config base s := ⟨hplaced, rule, e, hrule, he, hkind, hitem, hvalue⟩
  exact ⟨fun _ _ _ _ _ => exists_pattern_of_logged hpolicy hf hnone hfactor hsize,
    fun _ _ _ hreach hqty hsample hother hsize' =>
      exists_moved hpolicy hf hnone hreach hqty hsample hother hsize'⟩

/-! ### A rule and a habit -/

/-- Bathrooms are tiled by the square meter. -/
def tilingRule : Rule where
  tenant := "acme"
  key := ⟨.bathroom, .basic⟩
  labor := Table.ofList [("tiling", "areaM2")]
  materials := ∅
  createdAt := .epoch
  updatedAt := .epoch

/-- Ten square meters are made thirteen. -/
def tiling : Habit where
  tenant := "acme"
  requirements := ⟨.bathroom, .basic, .whole 10, false, false, ∅⟩
  profile := "standard"
  edit := ⟨.labor, "tiling", .whole 13, none⟩
  isItemRef_item := by decide +kernel

/-- A round under a quote of its own. -/
def turnOf (quote : QuoteId) : Turn := ⟨quote, default, .epoch⟩

/-- One sample is enough, and only the last one counts. -/
def lastSampleOnly : Config :=
  { Config.standard with tuning := { Policy.standard with minSamples := 1, windowSize := 1 } }

/-- The factor that is stored after rounds of the habit that follow the entry of the rule. -/
def tilingFactor (config : Config) (turns : List Turn) : Option Decimal :=
  ((tiling.after config (Service.run config [.putRule tilingRule]) turns).stores.patterns.get
    tiling.tenant tiling.key).map Pattern.factor

/-- **A habit may move its own factor.**  Under a valid configuration thirteen square meters instead
of ten are learned as the largest factor.  The next quote reports twelve, and the same correction to
thirteen is learned as a smaller factor. -/
theorem tilingFactor_moves :
    lastSampleOnly.fault? = none ∧
      ((Service.run lastSampleOnly [.putRule tilingRule]).stores.rules.get tiling.tenant
        tiling.requirements.ruleKey).map Rule.entries = some [⟨.labor, "tiling", "areaM2"⟩] ∧
      Entry.value ⟨.labor, "tiling", "areaM2"⟩ lastSampleOnly.limits tiling.requirements.bindings =
        .ok (.hundredths 1000) ∧
      lastSampleOnly.tuning.sample (.hundredths 1000) (.whole 13) = Decimal.ofParts? 1200 3 ∧
      tilingFactor lastSampleOnly [] = none ∧
      tilingFactor lastSampleOnly [turnOf "q1"] = Decimal.ofParts? 1200 3 ∧
      tilingFactor lastSampleOnly [turnOf "q1", turnOf "q2"] = Decimal.ofParts? 1083 3 := by
  refine ⟨?_, ?_, ?_, ?_, ?_, ?_, ?_⟩ <;> decide +kernel

/-- Under the standard policy five rounds leave the factor at the sample of ten and thirteen. -/
theorem factor_after_five :
    Config.standard.fault? = none ∧
      ∃ rule, (Service.run .standard [.putRule tilingRule]).stores.rules.get tiling.tenant
          tiling.requirements.ruleKey = some rule ∧
        (⟨.labor, "tiling", "areaM2"⟩ : Entry) ∈ rule.entries ∧
        ∃ p, (tiling.after .standard (Service.run .standard [.putRule tilingRule])
            ([] ++ turnOf "q1" :: ["q2", "q3", "q4", "q5"].map turnOf)).stores.patterns.get
          tiling.tenant tiling.key = some p ∧ some p.factor = Decimal.ofParts? 1200 3 := by
  have hconfig : Config.standard.fault? = none := by decide
  have hentries : ((Service.run .standard [.putRule tilingRule]).stores.rules.get tiling.tenant
      tiling.requirements.ruleKey).map Rule.entries = some [⟨.labor, "tiling", "areaM2"⟩] := by
    decide +kernel
  obtain ⟨rule, hrule, hrules⟩ := Option.map_eq_some_iff.1 hentries
  have he : (⟨.labor, "tiling", "areaM2"⟩ : Entry) ∈ rule.entries := by
    rw [hrules]
    exact List.mem_singleton.2 rfl
  have hvalue : Entry.value ⟨.labor, "tiling", "areaM2"⟩ Config.standard.limits
      tiling.requirements.bindings = .ok (.hundredths 1000) := by decide +kernel
  have hnone : (Service.run .standard [.putRule tilingRule]).stores.patterns.get tiling.tenant
      tiling.key = none := by decide +kernel
  have hfactor : Config.standard.tuning.sample (.hundredths 1000) tiling.edit.newQty =
      some (.ofBits 1200 3 (by decide)) := by decide +kernel
  have hlogged : ((tiling.round .standard (turnOf "q1")).run.run
      (tiling.after .standard (Service.run .standard [.putRule tilingRule]) [])).1 =
      .ok (some (.logged default (.updated (.ofBits 1200 3 (by decide)) 1 .low))) := by
    decide +kernel
  obtain ⟨hkept, -⟩ := factor_after .standard hconfig [.putRule tilingRule] tiling rule
    ⟨.labor, "tiling", "areaM2"⟩ (.hundredths 1000) (.ofBits 1200 3 (by decide)) hrule he rfl rfl
    hvalue hnone hfactor (by decide)
  obtain ⟨p, hp, hpfactor⟩ := hkept [] (turnOf "q1") (["q2", "q3", "q4", "q5"].map turnOf) _ _
    hlogged (.inl ⟨by decide, by decide⟩)
  exact ⟨hconfig, rule, hrule, he, p, hp, by rw [hpfactor]; decide⟩

end Habit
end Estimating
