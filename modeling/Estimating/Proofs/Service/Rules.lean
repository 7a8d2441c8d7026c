/-
The rules stored are a function of the rules put.

A rule is accepted if it is well formed and all of its expressions compile.  What is stored under a
key is the rule accepted last since the key was last deleted, created when the first of them was.
So whatever is stored compiles, and what has been compiled once never fails by its grammar.

* `Rule.Compiles` — all expressions of a rule compile; `Service.putRule_accepts` and
  `Service.putRule_refuses` say that this and being well formed is what a rule is accepted for;
* `Event.puts`, `Service.puts` — the rules accepted under a key since it was last deleted;
* `Rule.standing` — the rule that stands after rules have been put one over the other;
* `Rule.Stands`, `Rule.Stands.step` — an operation changes both alike;
* `Owned.pairwise_list` — a tenant's part of a table is in the order of the keys, so
  `Service.see_listRules` says what is listed for a tenant;
* `Service.see_generate` — what is seen when a report is generated, and
  `Service.exists_generate_of_see` — every report that is seen has been generated;
* `Service.rules_run` — **the rules after a run**.
-/
import Estimating.Proofs.Learning.History
import Estimating.Proofs.Service.Reports

set_option autoImplicit false

namespace Estimating

/-! ### Acceptance -/

/-- All expressions of a rule compile. -/
def Rule.Compiles (limits : Expression.Limits) (r : Rule) : Prop :=
  ∀ e ∈ r.entries, ∃ x, Expression.compile e.expression limits = .ok x

namespace Service

open World

variable {config : Config} {s s' : Stores}

theorem brokenPart?_eq_none {limits : Expression.Limits} {r : Rule} :
    brokenPart? limits r = none ↔ r.Compiles limits := by
  unfold brokenPart? Rule.Compiles
  rw [List.findSome?_eq_none_iff]
  refine forall₂_congr fun e _ => ?_
  cases Expression.compile e.expression limits with
  | error error => simp
  | ok x => simp

/-- A rule that is well formed and compiles is stored. -/
theorem putRule_accepts {r : Rule} (s : Stores) (hfault : r.fault? = none)
    (hcompiles : r.Compiles config.limits) :
    Yields (putRule config r).run s (.ok ()) { s with rules := s.rules.put r } := by
  rw [putRule, hfault, brokenPart?_eq_none.2 hcompiles]
  exact (yields_pure ()).bind ((yields_pure ()).bind (Action.yields_ofStore (yields_change _ _)))

/-- Any other rule is refused, and nothing is changed. -/
theorem putRule_refuses {r : Rule} (s : Stores)
    (h : ¬ (r.fault? = none ∧ r.Compiles config.limits)) :
    ∃ e, Yields (putRule config r).run s (.error e) s := by
  rw [putRule]
  cases hfault : r.fault? with
  | some fault => exact ⟨_, (yields_throw _).bind_error⟩
  | none =>
      cases hbroken : brokenPart? config.limits r with
      | some part => exact ⟨_, (yields_pure ()).bind (yields_throw _).bind_error⟩
      | none => exact absurd ⟨hfault, brokenPart?_eq_none.1 hbroken⟩ h

end Service

/-! ### Rules put one over the other -/

/-- The rules put under a key, after what has been seen: a rule that was accepted is one more, and
deletion begins anew. -/
def Event.puts (tenant : TenantId) (key : RuleKey) (rs : List Rule) (e : Event) : List Rule :=
  match e.op, e.answer with
  | .putRule r, .ok _ => if r.tenant = tenant ∧ r.key = key then rs ++ [r] else rs
  | .deleteRule tenant' key', .ok _ => if tenant' = tenant ∧ key' = key then [] else rs
  | _, _ => rs

/-- An operation that changes nothing puts no rule. -/
theorem Event.puts_of_keeps {w : World} {op : Operation} {result : Except ServiceError Answer}
    (h : op.Keeps result) (tenant : TenantId) (key : RuleKey) (rs : List Rule) :
    puts tenant key rs ⟨w, op, result⟩ = rs := by
  cases op with
  | putRule r =>
      obtain ⟨e, rfl⟩ := h
      rfl
  | deleteRule tenant' key' => exact h.elim
  | _ => rfl

/-- The rules put under a key since it was last deleted. -/
def Service.puts (tenant : TenantId) (key : RuleKey) (events : List Event) : List Rule :=
  events.foldl (Event.puts tenant key) []

theorem Service.puts_append_singleton (tenant : TenantId) (key : RuleKey) (events : List Event)
    (e : Event) :
    puts tenant key (events ++ [e]) = Event.puts tenant key (puts tenant key events) e := by
  rw [puts, List.foldl_append]
  rfl

/-- The rule that stands after rules have been put one over the other: the last one, created when
the first one was. -/
def Rule.standing : List Rule → Option Rule
  | [] => none
  | first :: more => some { more.getLastD first with createdAt := first.createdAt }

/-- A rule put over others takes over the time of their creation. -/
theorem Rule.standing_append_singleton (rs : List Rule) (r : Rule) :
    standing (rs ++ [r]) =
      some ((standing rs).elim r fun old => { r with createdAt := old.createdAt }) := by
  cases rs with
  | nil => rfl
  | cons first more => simp [standing]

/-- The rule stored under a key, if there is one, is the one that stands after the rules put; all
of them belong to the key, are well formed and compile. -/
structure Rule.Stands (limits : Expression.Limits) (tenant : TenantId) (key : RuleKey)
    (rs : List Rule) (stored : Option Rule) : Prop where
  stored_eq : stored = standing rs
  tenant_eq : ∀ r ∈ rs, r.tenant = tenant
  key_eq : ∀ r ∈ rs, r.key = key
  compiles : ∀ r ∈ rs, r.Compiles limits

namespace Rule.Stands

variable {config : Config} {s s' : Stores} {limits : Expression.Limits} {tenant : TenantId}
  {key : RuleKey} {rs : List Rule}

/-- A rule put under the key is the one that stands then. -/
theorem put {r : Rule} (h : Stands limits r.tenant r.key rs (s.rules.get r.tenant r.key))
    (hcompiles : r.Compiles limits) :
    Stands limits r.tenant r.key (rs ++ [r]) (some (s.rules.succeed r)) where
  stored_eq := by
    rw [standing_append_singleton, ← h.stored_eq, RuleStore.succeed]
    cases s.rules.get r.tenant r.key <;> rfl
  tenant_eq := by
    simp only [List.mem_append, List.mem_singleton]
    rintro r' (hr' | rfl)
    · exact h.tenant_eq r' hr'
    · rfl
  key_eq := by
    simp only [List.mem_append, List.mem_singleton]
    rintro r' (hr' | rfl)
    · exact h.key_eq r' hr'
    · rfl
  compiles := by
    simp only [List.mem_append, List.mem_singleton]
    rintro r' (hr' | rfl)
    · exact h.compiles r' hr'
    · exact hcompiles

theorem nil (limits : Expression.Limits) (tenant : TenantId) (key : RuleKey) :
    Stands limits tenant key [] none := ⟨rfl, nofun, nofun, nofun⟩

/-- What is stored is the last of the rules put, but for the time of its creation. -/
theorem exists_mem {r : Rule} (h : Stands limits tenant key rs (some r)) :
    ∃ r' ∈ rs, r = { r' with createdAt := r.createdAt } := by
  cases rs with
  | nil => cases h.stored_eq
  | cons first more =>
      have hr := Option.some.inj h.stored_eq
      refine ⟨more.getLastD first, List.getLastD_mem_cons, ?_⟩
      rw [hr]

/-- **An operation changes the rule stored as it changes the rules put.** -/
theorem step {s' : Stores} {op : Operation} {result : Except ServiceError Answer}
    (heffect : Effect config s op result s')
    (hcompiles : ∀ r, op = .putRule r → ∀ a, result = .ok a → r.Compiles config.limits)
    (h : Stands config.limits tenant key rs (s.rules.get tenant key)) :
    Stands config.limits tenant key (Event.puts tenant key rs ⟨.of s, op, result⟩)
      (s'.rules.get tenant key) := by
  cases heffect with
  | keep hkeeps =>
      rw [Event.puts_of_keeps hkeeps]
      exact h
  | @putRule r _ =>
      show Stands _ tenant key (if r.tenant = tenant ∧ r.key = key then rs ++ [r] else rs)
        ((s.rules.put r).get tenant key)
      rw [RuleStore.get_put]
      by_cases hsame : r.tenant = tenant ∧ r.key = key
      · rw [if_pos hsame, if_pos hsame]
        obtain ⟨rfl, rfl⟩ := hsame
        exact h.put (hcompiles r rfl _ rfl)
      · rw [if_neg hsame, if_neg hsame]
        exact h
  | deleteRule tenant' key' =>
      show Stands _ tenant key (if tenant' = tenant ∧ key' = key then [] else rs)
        ((s.rules.delete tenant' key').1.get tenant key)
      rw [RuleStore.get_delete]
      by_cases hsame : tenant' = tenant ∧ key' = key
      · rw [if_pos hsame, if_pos hsame]
        exact .nil ..
      · rw [if_neg hsame, if_neg hsame]
        exact h
  | _ => exact h

end Rule.Stands

/-! ### Lists of a tenant -/

/-- A tenant's part of a table is in the order of the keys, and each key is in it once. -/
theorem Owned.pairwise_list {κ α : Type} [Ord κ] [Std.TransOrd κ] [Std.LawfulEqOrd κ]
    {t : Table (Owned κ) α} {tenant : TenantId} {place : α → κ}
    (hplace : ∀ (key : Owned κ) a, t[key]? = some a → place a = key.key) :
    (list t tenant).Pairwise fun a b => compare (place a) (place b) = .lt := by
  rw [list, List.pairwise_map, List.pairwise_filter]
  have hordered : t.toList.Pairwise fun a b => compare a.1 b.1 = .lt :=
    Std.ExtTreeMap.ordered_keys_toList
  refine hordered.imp_of_mem ?_
  intro a b ha hb h hta htb
  -- the tenants are the same, so the keys decide
  have htenants : a.1.tenant = b.1.tenant := (beq_iff_eq.1 hta).trans (beq_iff_eq.1 htb).symm
  have h : (compare a.1.tenant b.1.tenant).then (compare a.1.key b.1.key) = .lt := h
  rw [htenants, Std.ReflOrd.compare_self] at h
  rw [hplace _ _ (Std.ExtTreeMap.mem_toList_iff_getElem?_eq_some.1 ha),
    hplace _ _ (Std.ExtTreeMap.mem_toList_iff_getElem?_eq_some.1 hb)]
  exact h

/-! ### Runs -/

/-- The report that an operation was seen to answer with. -/
def Event.report? (e : Event) : Option Report :=
  match e.answer with
  | .ok (.report r) => some r
  | _ => none

theorem Event.report?_eq_some {e : Event} {r : Report} (h : e.report? = some r) :
    e.answer = .ok (.report r) := by
  unfold Event.report? at h
  split at h
  · next hanswer =>
      cases h
      exact hanswer
  · cases h

namespace Service

open World

variable {config : Config}

/-- What an operation that is known to yield a result does in a run. -/
theorem see_of_yields (op : Operation) {ops : List Operation} {s s' : Stores}
    {result : Except ServiceError Answer} (hs : run config ops = .of s)
    (h : Yields (op.perform config).run s result s') :
    (see config (run config ops) op).answer = result ∧ run config (ops ++ [op]) = .of s' := by
  rw [run_append_singleton, hs]
  exact ⟨congrArg Prod.fst h, congrArg Prod.snd h⟩

/-- Generation after a run answers that there is no rule, or the report of the rule, or that an
amount is too large. -/
theorem see_generate (hattempts : config.tuning.maxAttempts ≠ 0) (ops : List Operation)
    (tenant : TenantId) (key : RuleKey) (bindings : Bindings) (profile : String) :
    (see config (run config ops) (.generate tenant key bindings profile)).answer =
      ((run config ops).stores.rules.get tenant key).elim (.error (.ruleNotFound tenant key))
        fun rule => (rule.report? config (run config ops).stores tenant key bindings profile).elim
          (.error .overflow) fun report => .ok (.report report) := by
  obtain ⟨s, hs, -⟩ := exists_run_eq_of hattempts ops
  have hstores : (run config ops).stores = s := by rw [hs]; rfl
  have hanswer := (see_of_yields (.generate tenant key bindings profile) hs (Operation.yields_map
    .report (generate_calm config tenant key bindings profile s))).1
  rw [hanswer, hstores]
  cases s.rules.get tenant key with
  | none => rfl
  | some rule =>
      simp only [Option.elim]
      cases rule.report? config s tenant key bindings profile <;> rfl

/-- A report that is seen when it is generated is one of the rule stored. -/
theorem exists_rule_of_see_generate (hattempts : config.tuning.maxAttempts ≠ 0)
    {ops : List Operation} {tenant : TenantId} {key : RuleKey} {bindings : Bindings}
    {profile : String} {report : Report}
    (h : (see config (run config ops) (.generate tenant key bindings profile)).answer =
      .ok (.report report)) :
    ∃ rule, (run config ops).stores.rules.get tenant key = some rule ∧
      rule.report? config (run config ops).stores tenant key bindings profile = some report := by
  obtain ⟨s, hs, -⟩ := exists_run_eq_of hattempts ops
  obtain ⟨result, hgenerate⟩ := reads_generate config tenant key bindings profile s
  have hanswer := (see_of_yields (.generate tenant key bindings profile) hs
    (Operation.yields_map .report hgenerate)).1
  obtain ⟨_, rfl, hreport⟩ := Except.map_eq_ok.1 (hanswer.symm.trans h)
  cases hreport
  rw [hs]
  exact exists_rule_of_generate hgenerate

/-- A rule put in a run is accepted if it is well formed and compiles; else nothing is changed. -/
theorem see_putRule (hattempts : config.tuning.maxAttempts ≠ 0) (ops : List Operation) (r : Rule) :
    (r.fault? = none ∧ r.Compiles config.limits ∧
      (see config (run config ops) (.putRule r)).answer = .ok .done) ∨
    (¬ (r.fault? = none ∧ r.Compiles config.limits) ∧
      (∃ e, (see config (run config ops) (.putRule r)).answer = .error e) ∧
      run config (ops ++ [.putRule r]) = run config ops) := by
  obtain ⟨s, hs, -⟩ := exists_run_eq_of hattempts ops
  by_cases h : r.fault? = none ∧ r.Compiles config.limits
  · have hyields := Operation.yields_map (fun _ => .done) (putRule_accepts s h.1 h.2)
    exact .inl ⟨h.1, h.2, (see_of_yields (.putRule r) hs hyields).1⟩
  · obtain ⟨e, hrefuses⟩ := putRule_refuses s h
    have hyields := Operation.yields_map (fun _ => Answer.done) hrefuses
    obtain ⟨hanswer, hrun⟩ := see_of_yields (.putRule r) hs hyields
    exact .inr ⟨h, ⟨e, hanswer⟩, hrun.trans hs.symm⟩

/-- At every moment of a run the rule stored is the one that stands after the rules put. -/
theorem stands_run (hattempts : config.tuning.maxAttempts ≠ 0) (tenant : TenantId) (key : RuleKey)
    (ops : List Operation) :
    Rule.Stands config.limits tenant key (puts tenant key (history config ops))
      ((run config ops).stores.rules.get tenant key) := by
  induction ops using List.reverseRecOn with
  | nil =>
      have hnone : (run config []).stores.rules.get tenant key = none :=
        Std.ExtTreeMap.getElem?_empty
      rw [hnone]
      exact .nil ..
  | append_singleton ops op ih =>
      obtain ⟨s, s', hs, hs', -, heffect⟩ := exists_effect hattempts ops op
      have hcompiles (r : Rule) (hop : op = .putRule r) (a : Answer)
          (hanswer : (see config (run config ops) op).answer = .ok a) :
          r.Compiles config.limits := by
        subst hop
        obtain ⟨-, hcompiles, -⟩ | ⟨-, ⟨e, he⟩, -⟩ := see_putRule hattempts ops r
        · exact hcompiles
        · cases he.symm.trans hanswer
      rw [hs] at ih
      have hstep := ih.step heffect hcompiles
      rw [history_append_singleton, puts_append_singleton, hs']
      rw [hs] at hstep ⊢
      exact hstep

/-- What is stored under a key of a tenant is a rule of the key that compiles. -/
theorem of_mem_run (hattempts : config.tuning.maxAttempts ≠ 0) {ops : List Operation}
    {tenant : TenantId} {key : RuleKey} {r : Rule}
    (hr : (run config ops).stores.rules.get tenant key = some r) :
    r.tenant = tenant ∧ r.key = key ∧ r.Compiles config.limits := by
  have h := stands_run hattempts tenant key ops
  rw [hr] at h
  obtain ⟨r', hr', heq⟩ := h.exists_mem
  rw [heq]
  exact ⟨h.tenant_eq r' hr', h.key_eq r' hr', h.compiles r' hr'⟩

/-- What is listed for a tenant: each rule stored, in the order of the keys. -/
theorem see_listRules (hattempts : config.tuning.maxAttempts ≠ 0) (ops : List Operation)
    (tenant : TenantId) :
    ∃ rs, (see config (run config ops) (.listRules tenant)).answer = .ok (.rules rs) ∧
      (rs.Pairwise fun a b => compare a.key b.key = .lt) ∧
      ∀ r, r ∈ rs ↔ (run config ops).stores.rules.get tenant r.key = some r := by
  obtain ⟨s, hs, -⟩ := exists_run_eq_of hattempts ops
  have hlist : Yields (listRules tenant).run s (.ok (s.rules.list tenant)) s :=
    Action.yields_ofStore (yields_ask _ _)
  have hanswer := (see_of_yields (.listRules tenant) hs (Operation.yields_map .rules hlist)).1
  have hkey (key : Owned RuleKey) (r : Rule) (hr : s.rules[key]? = some r) : r.key = key.key := by
    have hget : (run config ops).stores.rules.get key.tenant key.key = some r := by
      rw [hs]
      exact hr
    exact (of_mem_run hattempts hget).2.1
  refine ⟨s.rules.list tenant, hanswer, Owned.pairwise_list hkey, fun r => ?_⟩
  rw [hs]
  refine Owned.mem_list.trans ⟨?_, fun hr => ⟨r.key, hr⟩⟩
  rintro ⟨key, hr⟩
  rw [RuleStore.get, hkey ⟨tenant, key⟩ r hr]
  exact hr

/-- What goes wrong with an entry that compiles is no fault of the grammar. -/
theorem error_ne_of_mem_failures {limits : Expression.Limits} {bindings : Bindings} {e : Entry}
    {answer : Lookup} {f : Failure}
    (hcompiles : ∃ x, Expression.compile e.expression limits = .ok x)
    (hf : f ∈ e.failures (e.value limits bindings) answer) : f.error ≠ "SyntaxError" := by
  obtain ⟨x, hx⟩ := hcompiles
  rcases List.mem_append.1 hf with hf | hf
  · cases hvalue : e.value limits bindings with
    | ok v =>
        rw [hvalue] at hf
        cases hf
    | error err =>
        rw [hvalue] at hf
        obtain rfl := List.mem_singleton.1 hf
        have heval : e.value limits bindings = x.eval bindings := by
          rw [Entry.value, Expression.evalText, hx]
          rfl
        have hkind := Expression.eval_kind hx (heval.symm.trans hvalue)
        show err.kind.name ≠ "SyntaxError"
        revert hkind
        cases err.kind <;> decide
  · rcases answer with cause | _ | row
    · obtain rfl := List.mem_singleton.1 hf
      exact (by decide : "CatalogUnavailable" ≠ "SyntaxError")
    · obtain rfl := List.mem_singleton.1 hf
      exact (by decide : "CatalogMiss" ≠ "SyntaxError")
    · cases hf

/-- What is told to have failed in a report that is generated after a run is no fault of the
grammar. -/
theorem error_ne_of_generate (hattempts : config.tuning.maxAttempts ≠ 0) {ops : List Operation}
    {s : Stores} (hs : run config ops = .of s) {tenant : TenantId} {key : RuleKey}
    {bindings : Bindings} {profile : String} {report : Report}
    (h : Yields (generate config tenant key bindings profile).run s (.ok report) s) {f : Failure}
    (hf : f ∈ report.failures) : f.error ≠ "SyntaxError" := by
  obtain ⟨rule, hrule, hmade⟩ := exists_rule_of_generate h
  have hcompiles : rule.Compiles config.limits :=
    (of_mem_run hattempts (by rw [hs]; exact hrule)).2.2
  obtain ⟨e, he, hf⟩ := Rule.exists_entry_of_mem_failures hmade hf
  exact error_ne_of_mem_failures (hcompiles e he) hf

/-- What is answered by a mapped call is an image. -/
theorem exists_of_map {α : Type} {a : Action α} {g : α → Answer} {w : World} {y : Answer}
    (h : ((g <$> a).run.run w).1 = .ok y) : ∃ x, g x = y := by
  rw [ExceptT.run_map] at h
  obtain ⟨x, -, hx⟩ := Except.map_eq_ok.1 h
  exact ⟨x, hx⟩

/-- An operation that answers with a report generates it; of a quote it notes the name. -/
theorem exists_generate_of_see {ops : List Operation} {s : Stores} (hs : run config ops = .of s)
    {op : Operation} {report : Report}
    (h : (see config (run config ops) op).answer = .ok (.report report)) :
    ∃ tenant key bindings profile report',
      Yields (generate config tenant key bindings profile).run s (.ok report') s ∧
      report = { report' with quote := report.quote } := by
  rw [see, hs] at h
  cases op with
  | generate tenant key bindings profile =>
      obtain ⟨r, hr⟩ := reads_generate config tenant key bindings profile s
      have hanswer := congrArg Prod.fst (Operation.yields_map Answer.report hr)
      obtain ⟨report', rfl, hreport⟩ := Except.map_eq_ok.1 (hanswer.symm.trans h)
      cases hreport
      exact ⟨tenant, key, bindings, profile, report, hr, rfl⟩
  | issueQuote tenant quote requirements profile =>
      obtain ⟨e, he⟩ | ⟨report', hreport', hquote⟩ :=
        issueQuote_calm config tenant quote requirements profile s
      · have hanswer := congrArg Prod.fst (Operation.yields_map Answer.report he)
        cases hanswer.symm.trans h
      · have hanswer := congrArg Prod.fst (Operation.yields_map Answer.report hquote)
        cases hanswer.symm.trans h
        exact ⟨_, _, _, _, report', hreport', rfl⟩
  | _ =>
      -- any other operation answers otherwise
      obtain ⟨_, hreport⟩ := exists_of_map h
      cases hreport

/-- **The rules after a run are a function of the rules put.**  Under every key the rule that is
stored is the one accepted last since the key was last deleted, created when the first of them was;
a list of a tenant's rules has each of them once, in the order of their keys.  A rule is accepted if
and only if it is well formed and all of its expressions compile, and one that is refused changes
nothing.  So every rule stored compiles, and no report tells a fault of the grammar. -/
theorem rules_run (config : Config) (hconfig : config.fault? = none) (ops : List Operation) :
    (∀ tenant key, (run config ops).stores.rules.get tenant key =
      Rule.standing (puts tenant key (history config ops))) ∧
    (∀ tenant, ∃ rs, (see config (run config ops) (.listRules tenant)).answer = .ok (.rules rs) ∧
      (rs.Pairwise fun a b => compare a.key b.key = .lt) ∧
      ∀ r, r ∈ rs ↔ ∃ key, Rule.standing (puts tenant key (history config ops)) = some r) ∧
    (∀ r,
      ((see config (run config ops) (.putRule r)).answer = .ok .done ↔
        r.fault? = none ∧ r.Compiles config.limits) ∧
      ∀ e, (see config (run config ops) (.putRule r)).answer = .error e →
        run config (ops ++ [.putRule r]) = run config ops) ∧
    (∀ tenant key r, (run config ops).stores.rules.get tenant key = some r →
      r.tenant = tenant ∧ r.key = key ∧ r.Compiles config.limits) ∧
    ∀ op report, (see config (run config ops) op).answer = .ok (.report report) →
      ∀ f ∈ report.failures, f.error ≠ "SyntaxError" := by
  have hattempts := (Config.valid_tuning hconfig).maxAttempts_ne_zero
  have hstored (tenant : TenantId) (key : RuleKey) :=
    (stands_run hattempts tenant key ops).stored_eq
  refine ⟨hstored, ?_, ?_, fun _ _ _ => of_mem_run hattempts, ?_⟩
  · intro tenant
    obtain ⟨rs, hanswer, hordered, hmem⟩ := see_listRules hattempts ops tenant
    refine ⟨rs, hanswer, hordered, fun r => (hmem r).trans ?_⟩
    constructor
    · intro hr
      exact ⟨r.key, (hstored tenant r.key).symm.trans hr⟩
    · rintro ⟨key, hr⟩
      have hr := (hstored tenant key).trans hr
      rw [(of_mem_run hattempts hr).2.1]
      exact hr
  · intro r
    obtain ⟨hfault, hcompiles, hanswer⟩ | ⟨hnot, ⟨e, he⟩, hsame⟩ := see_putRule hattempts ops r
    · rw [hanswer]
      exact ⟨⟨fun _ => ⟨hfault, hcompiles⟩, fun _ => rfl⟩, nofun⟩
    · rw [he]
      exact ⟨⟨nofun, fun h => absurd h hnot⟩, fun _ _ => hsame⟩
  · intro op report h f hf
    obtain ⟨s, hs, -⟩ := exists_run_eq_of hattempts ops
    obtain ⟨_, _, _, _, report', hreport', heq⟩ := exists_generate_of_see hs h
    rw [heq] at hf
    exact error_ne_of_generate hattempts hs hreport' hf

/-- The floor of a bathroom is tiled, by an expression and as of a day of January 1970. -/
def tilingAs (expression : String) (day : Nat) : Rule where
  tenant := "acme"
  key := ⟨.bathroom, .basic⟩
  labor := Table.ofList [("tiling", expression)]
  materials := ∅
  createdAt := { Timestamp.epoch with date := ⟨1970, 1, day⟩ }
  updatedAt := { Timestamp.epoch with date := ⟨1970, 1, day⟩ }

/-- A rule is deleted, put anew and replaced; what does not compile is refused. -/
def tilingAnew : List Operation := [
  .putRule (tilingAs "areaM2" 1),
  .deleteRule "acme" ⟨.bathroom, .basic⟩,
  .putRule (tilingAs "areaM2" 2),
  .putRule (tilingAs "areaM2 * tiles" 3),
  .putRule (tilingAs "areaM2 *" 4)]

/-- The second rule and the third one count: the expression of the one, as of the day of the other.
That `tiles` is not bound is told, but not as a fault of the grammar. -/
theorem rules_run_tilingAnew :
    Config.standard.fault? = none ∧
      puts "acme" ⟨.bathroom, .basic⟩ (history .standard tilingAnew) ≠ [] ∧
      ((run .standard tilingAnew).stores.rules.get "acme" ⟨.bathroom, .basic⟩).map
        (fun r => (r.entries, r.createdAt)) =
          some ([⟨.labor, "tiling", "areaM2 * tiles"⟩], (tilingAs "areaM2" 2).createdAt) ∧
      ∃ report, (see .standard (run .standard tilingAnew)
          (.generate "acme" ⟨.bathroom, .basic⟩ ∅ "standard")).answer = .ok (.report report) ∧
        report.failures ≠ [] ∧ ∀ f ∈ report.failures, f.error ≠ "SyntaxError" := by
  have hconfig : Config.standard.fault? = none := by decide
  obtain ⟨hstored, -, -, -, hreports⟩ := rules_run .standard hconfig tilingAnew
  refine ⟨hconfig, by decide +kernel, ?_, ?_⟩
  · rw [hstored]
    decide +kernel
  · have hfailures : ((see .standard (run .standard tilingAnew)
        (.generate "acme" ⟨.bathroom, .basic⟩ ∅ "standard")).report?.map Report.failures).any
        fun fs => fs ≠ [] := by decide +kernel
    obtain ⟨fs, hfs, hne⟩ := (Option.any_eq_true _ _).1 hfailures
    obtain ⟨report, hreport, rfl⟩ := Option.map_eq_some_iff.1 hfs
    have hanswer := Event.report?_eq_some hreport
    exact ⟨report, hanswer, of_decide_eq_true hne, hreports _ report hanswer⟩

end Service

end Estimating
