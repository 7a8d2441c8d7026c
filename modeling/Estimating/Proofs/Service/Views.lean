/-
The views of what has been learned agree.

What has been learned for an item is told in three places: among all insights of the tenant, in the
summary of its rule, and on the lines of a report.  Each of them works out the tier for itself, and
each reads the patterns on a way of its own.

* `PatternStore.Shows` — what the insights of a tenant are, and `PatternStore.shows_insights` —
  **insights are made so**;
* `Service.see_insights`, `Service.see_ruleSummary` — what is seen of both views, and
  `Service.insights_overflow_iff` — when there is none;
* `Item.Agrees` — what is noted on a line agrees with insights, and `Service.agrees_of_generate` —
  **the lines of a report agree**;
* `Service.standing_step`, `Service.standing_run` — **learning does not go back**, unless it is told
  to forget;
* `Service.views_run` — all of this at every moment of a run.
-/
import Estimating.Proofs.Learning.Insights
import Estimating.Proofs.Service.Confinement
import Estimating.Proofs.Service.Rules

set_option autoImplicit false

namespace Estimating

/-! ### The insights of a tenant -/

namespace PatternStore

variable {store : PatternStore} {policy : Policy} {tenant : TenantId} {is : List Insight}

/-- The insights are those of the patterns of a tenant, each of them once and in order. -/
structure Shows (store : PatternStore) (policy : Policy) (tenant : TenantId) (is : List Insight) :
    Prop where
  ordered : is.Pairwise Insight.Above
  once : (is.map Insight.key).Nodup
  sound : ∀ i ∈ is, ∃ p, store.get tenant i.key = some p ∧ Insight.ofPattern policy p = some i
  complete : ∀ key p, store.get tenant key = some p → ∃ i ∈ is, i.key = key

theorem nodup_list (hplaced : store.Placed) (tenant : TenantId) :
    ((store.list tenant).map Pattern.key).Nodup := by
  have hkey (k : Owned PatternKey) (p : Pattern) (hp : store[k]? = some p) : p.key = k.key :=
    (Owned.mk.inj (hplaced k.tenant k.key p hp)).2
  have hordered : (store.list tenant).Pairwise fun a b => compare a.key b.key = .lt :=
    Owned.pairwise_list hkey
  refine List.pairwise_map.2 (hordered.imp ?_)
  intro a b hlt heq
  rw [heq, Std.ReflOrd.compare_self] at hlt
  cases hlt

theorem mem_list (hplaced : store.Placed) {p : Pattern} :
    p ∈ store.list tenant ↔ store.get tenant p.key = some p := by
  rw [list, Owned.mem_list]
  constructor
  · rintro ⟨key, hp⟩
    rw [(Owned.mk.inj (hplaced tenant key p hp)).2]
    exact hp
  · intro hp
    exact ⟨p.key, hp⟩

/-- **What is shown of the patterns of a tenant.** -/
theorem shows_insights (hplaced : store.Placed)
    (h : insights (store.list tenant) policy = some is) : store.Shows policy tenant is where
  ordered := pairwise_insights (nodup_list hplaced tenant) h
  once := by
    obtain ⟨shown, hshown, rfl⟩ := Option.map_eq_some_iff.1 h
    rw [((List.mergeSort_perm shown Insight.precedes).map _).nodup_iff, map_key_of_mapM hshown]
    exact nodup_list hplaced tenant
  sound i hi := by
    obtain ⟨p, hp, hi⟩ := (mem_insights_iff h).1 hi
    rw [mem_list hplaced] at hp
    exact ⟨p, Insight.key_of_ofPattern hi ▸ hp, hi⟩
  complete key p hp := by
    obtain rfl : p.key = key := (Owned.mk.inj (hplaced tenant key p hp)).2
    obtain ⟨i, hi⟩ := Option.isSome_iff_exists.1
      (isSome_insights_iff.1 (Option.isSome_iff_exists.2 ⟨is, h⟩) p ((mem_list hplaced).2 hp))
    exact ⟨i, (mem_insights_iff h).2 ⟨p, (mem_list hplaced).2 hp, hi⟩,
      Insight.key_of_ofPattern hi⟩

/-- An insight shows the measures of the pattern stored. -/
theorem Shows.standing_eq (h : store.Shows policy tenant is) {i : Insight} (hi : i ∈ is) :
    i.standing = policy.standing (store.get tenant i.key) := by
  obtain ⟨p, hp, hshown⟩ := h.sound i hi
  rw [hp, Policy.standing_of_ofPattern hshown]

end PatternStore

/-! ### Both views in a run -/

namespace Service

open World

variable {config : Config} {ops : List Operation} {tenant : TenantId}

/-- What is seen of the insights of a tenant. -/
theorem see_insights (hattempts : config.tuning.maxAttempts ≠ 0) (ops : List Operation)
    (tenant : TenantId) :
    (see config (run config ops) (.insights tenant)).answer =
      (Estimating.insights ((run config ops).stores.patterns.list tenant) config.tuning).elim
        (.error .overflow) fun is => .ok (.insights is) := by
  obtain ⟨s, hs, -⟩ := exists_run_eq_of hattempts ops
  have hanswer := (see_of_yields (.insights tenant) hs (Operation.yields_map .insights
    ((Learning.yields_insights config.tuning tenant s).map _))).1
  rw [hanswer, hs]
  show _ = (Estimating.insights (s.patterns.list tenant) config.tuning).elim _ _
  cases Estimating.insights (s.patterns.list tenant) config.tuning <;> rfl

/-- What is seen of the summary of a rule. -/
theorem see_ruleSummary (hattempts : config.tuning.maxAttempts ≠ 0) (ops : List Operation)
    (tenant : TenantId) (key : RuleKey) :
    (see config (run config ops) (.ruleSummary tenant key)).answer =
      (RuleSummary.ofPatterns key ((run config ops).stores.patterns.ofRule tenant key)
        config.tuning).elim (.error .overflow) fun summary => .ok (.summary summary) := by
  obtain ⟨s, hs, -⟩ := exists_run_eq_of hattempts ops
  have hanswer := (see_of_yields (.ruleSummary tenant key) hs (Operation.yields_map .summary
    ((Learning.yields_summary config.tuning tenant key s).map _))).1
  rw [hanswer, hs]
  unfold PatternStore.ofRule
  show _ = (RuleSummary.ofPatterns key ((s.patterns.list tenant).filter fun p =>
    p.key.ruleKey == key) config.tuning).elim _ _
  cases RuleSummary.ofPatterns key _ config.tuning <;> rfl

theorem placed_run (hattempts : config.tuning.maxAttempts ≠ 0) (ops : List Operation) :
    (run config ops).stores.patterns.Placed := by
  obtain ⟨s, hs, hplaced⟩ := exists_run_eq_of hattempts ops
  rw [hs]
  exact hplaced

/-- There are no insights if and only if one of the factors has no words. -/
theorem insights_overflow_iff (hattempts : config.tuning.maxAttempts ≠ 0) :
    (see config (run config ops) (.insights tenant)).answer = .error .overflow ↔
      ∃ key p, (run config ops).stores.patterns.get tenant key = some p ∧
        describeFactor p.factor (config.tuning.confidence p.samples).tier = none := by
  have hplaced := placed_run hattempts ops
  have hwords (p : Pattern) : (Insight.ofPattern config.tuning p).isSome ↔
      describeFactor p.factor (config.tuning.confidence p.samples).tier ≠ none := by
    rw [Insight.ofPattern, Option.isSome_map, Option.isSome_iff_ne_none]
  have hshown : (Estimating.insights ((run config ops).stores.patterns.list tenant)
      config.tuning).isSome ↔ ∀ p ∈ (run config ops).stores.patterns.list tenant,
        (Insight.ofPattern config.tuning p).isSome := isSome_insights_iff
  rw [see_insights hattempts]
  constructor
  · intro h
    by_contra hnone
    push Not at hnone
    obtain ⟨is, his⟩ := Option.isSome_iff_exists.1 (hshown.2 fun p hp =>
      (hwords p).2 (hnone p.key p ((PatternStore.mem_list hplaced).1 hp)))
    rw [his] at h
    cases h
  · rintro ⟨key, p, hp, hnone⟩
    have hkey : p.key = key := (Owned.mk.inj (hplaced tenant key p hp)).2
    cases his : Estimating.insights ((run config ops).stores.patterns.list tenant)
        config.tuning with
    | none => rfl
    | some is =>
        have hmem := (PatternStore.mem_list hplaced).2 (hkey ▸ hp)
        exact absurd hnone ((hwords p).1 (hshown.1 (Option.isSome_iff_exists.2 ⟨is, his⟩) p hmem))

/-- Otherwise they are those of the patterns stored. -/
theorem insights_run (hattempts : config.tuning.maxAttempts ≠ 0)
    (h : (see config (run config ops) (.insights tenant)).answer ≠ .error .overflow) :
    ∃ is, (see config (run config ops) (.insights tenant)).answer = .ok (.insights is) ∧
      Estimating.insights ((run config ops).stores.patterns.list tenant) config.tuning =
        some is := by
  rw [see_insights hattempts] at h ⊢
  cases hshown : Estimating.insights ((run config ops).stores.patterns.list tenant)
      config.tuning with
  | none =>
      rw [hshown] at h
      exact absurd rfl h
  | some is => exact ⟨is, rfl, rfl⟩

/-- **The summary of a rule** has those insights of the tenant that have its key. -/
theorem ruleSummary_run (hattempts : config.tuning.maxAttempts ≠ 0) {is : List Insight}
    (h : Estimating.insights ((run config ops).stores.patterns.list tenant) config.tuning = some is)
    (key : RuleKey) :
    (see config (run config ops) (.ruleSummary tenant key)).answer =
      .ok (.summary (.ofInsights key (is.filter fun i => i.key.ruleKey == key))) := by
  have hnodup := PatternStore.nodup_list (placed_run hattempts ops) tenant
  rw [see_ruleSummary hattempts, RuleSummary.ofPatterns, PatternStore.ofRule,
    insights_filter hnodup (fun k => k.ruleKey == key) h]
  rfl

end Service

/-! ### Lines of reports -/

/-- What is noted on a line agrees with the insights of its tenant: it tells the samples and the
tier of the insight of the item under the rule, and that nothing has been learned if there is none.
The factor is used if the tier is not low, and only then. -/
structure Item.Agrees (key : RuleKey) (is : List Insight) (i : Item) : Prop where
  learned : ∀ j ∈ is, j.key.ruleKey = key → j.key.item = i.item →
    i.tuning.samples = j.samples ∧ i.tuning.tier = j.tier
  untuned : (∀ j ∈ is, j.key.ruleKey = key → j.key.item ≠ i.item) → i.tuning = .untuned
  applied_iff : i.tuning.applied = true ↔ i.tuning.tier = .medium ∨ i.tuning.tier = .high

namespace TuningNote

variable {policy : Policy}

theorem tier_low_of_few {n : Nat} (h : ¬ policy.minSamples ≤ n) :
    (policy.confidence n).tier = .low := by
  have hhigh : ¬ max policy.highSamples policy.minSamples ≤ n :=
    fun h' => h ((Nat.le_max_right _ _).trans h')
  exact (if_neg hhigh).trans (if_neg h)

theorem tier_of_enough {n : Nat} (h : policy.minSamples ≤ n) :
    (policy.confidence n).tier = .medium ∨ (policy.confidence n).tier = .high := by
  unfold Confidence.tier
  split
  · exact .inr rfl
  · exact .inl (if_pos h)

/-- What is noted for a pattern are its samples and its tier, be they enough or not. -/
theorem ofPattern_some (policy : Policy) (p : Pattern) :
    (ofPattern policy (some p)).samples = p.samples ∧
      (ofPattern policy (some p)).tier = (policy.confidence p.samples).tier := by
  by_cases h : policy.minSamples ≤ p.samples
  · rw [ofPattern_of_enough h]
    exact ⟨rfl, rfl⟩
  · rw [ofPattern_of_few h, tier_low_of_few h]
    exact ⟨rfl, rfl⟩

/-- A factor is used if its tier is not low, and only then. -/
theorem applied_ofPattern (policy : Policy) (p? : Option Pattern) :
    (ofPattern policy p?).applied = true ↔
      (ofPattern policy p?).tier = .medium ∨ (ofPattern policy p?).tier = .high := by
  cases p? with
  | none =>
      show false = true ↔ Tier.low = .medium ∨ Tier.low = .high
      decide
  | some p =>
      by_cases h : policy.minSamples ≤ p.samples
      · rw [ofPattern_of_enough h]
        exact iff_of_true rfl (tier_of_enough h)
      · rw [ofPattern_of_few h]
        show false = true ↔ Tier.low = .medium ∨ Tier.low = .high
        decide

end TuningNote

/-- A line that notes the pattern of its item agrees with what is shown. -/
theorem Item.agrees_of_tuning {store : PatternStore} {policy : Policy} {tenant : TenantId}
    {is : List Insight} (hshows : store.Shows policy tenant is) {key : PatternKey} {i : Item}
    (hitem : i.item = key.item) (htuning : i.tuning = .ofPattern policy (store.get tenant key)) :
    i.Agrees key.ruleKey is where
  learned j hj hrule hname := by
    obtain rfl : j.key = key := PatternKey.eq_of_parts hrule (hname.trans hitem)
    obtain ⟨p, hp, hshown⟩ := hshows.sound j hj
    obtain ⟨_, -, rfl⟩ := Option.map_eq_some_iff.1 hshown
    rw [htuning, hp]
    exact TuningNote.ofPattern_some policy p
  untuned hnone := by
    cases hp : store.get tenant key with
    | none => rw [htuning, hp, TuningNote.ofPattern]
    | some p =>
        obtain ⟨j, hj, hkey⟩ := hshows.complete key p hp
        exact absurd ((congrArg PatternKey.item hkey).trans hitem.symm)
          (hnone j hj (congrArg PatternKey.ruleKey hkey))
  applied_iff := htuning ▸ TuningNote.applied_ofPattern policy _

namespace Service

variable {config : Config} {ops : List Operation} {tenant : TenantId}

/-- **The lines of a report agree** with the insights of its tenant, where they have a value. -/
theorem agrees_of_generate (hpolicy : config.tuning.Valid) {is : List Insight}
    (hshows : (run config ops).stores.patterns.Shows config.tuning tenant is) {key : RuleKey}
    {bindings : Bindings} {profile : String} {report : Report}
    (h : (see config (run config ops) (.generate tenant key bindings profile)).answer =
      .ok (.report report)) {i : Item} (hi : i ∈ report.items)
    (hvalue : ∀ f ∈ report.failures,
      ¬ (f.stage = .evaluation ∧ f.kind = i.kind ∧ f.item = i.item)) :
    i.Agrees key is := by
  have hattempts := hpolicy.maxAttempts_ne_zero
  obtain ⟨rule, hrule, hmade⟩ := exists_rule_of_see_generate hattempts h
  obtain ⟨e, hpair, hshown⟩ := exists_mem_zip (Rule.forall₂_shownBy hpolicy hmade).flip hi
  have he : e ∈ rule.entries := (List.of_mem_zip hpair).2
  obtain ⟨drafts, hdrafts, -, hfailures, -⟩ := Rule.exists_drafts_of_report? hmade
  have hok : (e.value config.limits bindings).isOk = true := by
    by_contra hfailed
    obtain ⟨f, hf, hwhere⟩ :=
      (Rule.exists_evaluation_failure_iff hdrafts he).2 (Bool.not_eq_true _ ▸ hfailed)
    rw [← hshown.kind, ← hshown.item] at hwhere
    exact hvalue f (hfailures ▸ hf) hwhere
  have htuning := hshown.tuning
  rw [if_pos hok] at htuning
  -- the entry has a usable name, so what has been learned for it is kept under a key
  let place : PatternKey := ⟨key, e.item, isItemRef_of_mem_run hattempts hrule he⟩
  rw [PatternStore.ofRule, PatternStore.patternFor_list (placed_run hattempts ops) tenant place]
    at htuning
  have hitem : i.item = place.item := hshown.item
  exact Item.agrees_of_tuning hshows hitem htuning

/-! ### Learning does not go back -/

variable {s s' : Stores} {key : PatternKey}

/-- A sample more is not a sample less, as long as no more are counted than may be. -/
theorem samples_le_of_observe {q : Sampling} {p next : Pattern}
    (hcount : p.samples ≤ q.policy.maxSamples) (h : q.observe (some p) = some next) :
    p.samples ≤ next.samples := by
  obtain ⟨factor, -, h⟩ := Option.bind_eq_some_iff.1 h
  cases h
  show p.samples ≤ min (p.samples + 1) q.policy.maxSamples
  omega

/-- **No operation lowers a measure** of what has been learned, except for forgetting. -/
theorem standing_step {op : Operation} {result : Except ServiceError Answer}
    (heffect : Effect config s op result s') (hplaced : s.patterns.Placed)
    (hcount : ∀ p, s.patterns.get tenant key = some p → p.samples ≤ config.tuning.maxSamples)
    (hop : op ≠ .forget tenant key) :
    (config.tuning.standing (s.patterns.get tenant key)).AtMost
      (config.tuning.standing (s'.patterns.get tenant key)) := by
  cases heffect with
  | @learn tenant' r id now key' sample next hrule hitem hsample hnext =>
      show Standing.AtMost _ (config.tuning.standing (PatternStore.get (s.patterns.put next) _ _))
      rw [PatternStore.put, PatternStore.get_insert_versioned]
      split
      · next hplace =>
          obtain ⟨rfl, rfl⟩ := Owned.mk.inj ((hplaced.observe hnext).symm.trans hplace)
          cases hget : s.patterns.get tenant' key' with
          | none => exact config.tuning.standing_none_le _
          | some p =>
              rw [hget] at hnext
              have hle : p.samples ≤ next.samples :=
                samples_le_of_observe (hcount p hget) hnext
              exact config.tuning.standing_le hle
      · exact .refl _
  | forget tenant' key' =>
      show Standing.AtMost _
        (config.tuning.standing (PatternStore.get (s.patterns.delete tenant' key').1 _ _))
      rw [PatternStore.get_delete]
      split
      · next heq =>
          obtain ⟨rfl, rfl⟩ := heq
          exact absurd rfl hop
      · exact .refl _
  | _ => exact .refl _

/-- **As long as an item is not forgotten, no measure falls.** -/
theorem standing_run (hpolicy : config.tuning.Valid) (ops : List Operation) {tenant : TenantId}
    {key : PatternKey} {more : List Operation} (hmore : .forget tenant key ∉ more) :
    (config.tuning.standing ((run config ops).stores.patterns.get tenant key)).AtMost
      (config.tuning.standing ((run config (ops ++ more)).stores.patterns.get tenant key)) := by
  induction more using List.reverseRecOn with
  | nil =>
      rw [List.append_nil]
      exact .refl _
  | append_singleton more op ih =>
      rw [List.mem_append, not_or, List.mem_singleton] at hmore
      refine (ih hmore.1).trans ?_
      obtain ⟨s, s', hs, hs', hplaced, heffect⟩ :=
        exists_effect hpolicy.maxAttempts_ne_zero (ops ++ more) op
      have hremembers := remembers_run hpolicy tenant key (ops ++ more)
      rw [← List.append_assoc, hs']
      rw [hs] at hremembers ⊢
      refine standing_step heffect hplaced (fun p hp => ?_) (Ne.symm hmore.2)
      rw [show (World.of s).stores.patterns.get tenant key = some p from hp] at hremembers
      obtain ⟨-, samples, -, hlearned⟩ := hremembers
      rw [hlearned.count]
      exact Nat.min_le_right _ _

/-! ### All views -/

/-- **The views of what has been learned agree**, at every moment of a run.  The insights of a tenant
overflow if and only if one of its factors has no words.  Else they are those of its patterns, each
of them once, the most samples first and then by key; they show the measures of the patterns, and
depend on nothing else, such as the order in which these were made.  The summary of a rule has those
of them that are under its key, in the same order, and counts each of them under one tier.  On the
lines of a report that have a value the samples and the tier of the insight are noted, and the factor
is used if and only if the tier is not low.  As long as an item is not forgotten, no measure of what
has been learned for it falls. -/
theorem views_run (config : Config) (hconfig : config.fault? = none) (ops : List Operation) :
    (∀ tenant, (see config (run config ops) (.insights tenant)).answer = .error .overflow ↔
      ∃ key p, (run config ops).stores.patterns.get tenant key = some p ∧
        describeFactor p.factor (config.tuning.confidence p.samples).tier = none) ∧
    (∀ tenant, (see config (run config ops) (.insights tenant)).answer ≠ .error .overflow →
      ∃ is, (see config (run config ops) (.insights tenant)).answer = .ok (.insights is) ∧
        (run config ops).stores.patterns.Shows config.tuning tenant is ∧
        (∀ i ∈ is, i.standing =
          config.tuning.standing ((run config ops).stores.patterns.get tenant i.key)) ∧
        (∀ ops', (∀ key, (run config ops').stores.patterns.get tenant key =
            (run config ops).stores.patterns.get tenant key) →
          (see config (run config ops') (.insights tenant)).answer = .ok (.insights is)) ∧
        (∀ key, ∃ summary,
          (see config (run config ops) (.ruleSummary tenant key)).answer =
            .ok (.summary summary) ∧
          summary = .ofInsights key (is.filter fun i => i.key.ruleKey == key) ∧
          summary.high + summary.medium + summary.low = summary.total) ∧
        ∀ key bindings profile report,
          (see config (run config ops) (.generate tenant key bindings profile)).answer =
            .ok (.report report) →
          ∀ i ∈ report.items, (∀ f ∈ report.failures,
              ¬ (f.stage = .evaluation ∧ f.kind = i.kind ∧ f.item = i.item)) →
            i.Agrees key is) ∧
    ∀ tenant key more, .forget tenant key ∉ more →
      (config.tuning.standing ((run config ops).stores.patterns.get tenant key)).AtMost
        (config.tuning.standing
          ((run config (ops ++ more)).stores.patterns.get tenant key)) := by
  have hpolicy := Config.valid_tuning hconfig
  have hattempts := hpolicy.maxAttempts_ne_zero
  refine ⟨fun tenant => insights_overflow_iff hattempts, fun tenant hfits => ?_,
    fun tenant key more hmore => standing_run hpolicy ops hmore⟩
  obtain ⟨is, hanswer, hinsights⟩ := insights_run hattempts hfits
  have hshows := PatternStore.shows_insights (placed_run hattempts ops) hinsights
  refine ⟨is, hanswer, hshows, fun i hi => hshows.standing_eq hi, fun ops' hget => ?_,
    fun key => ⟨_, ruleSummary_run hattempts hinsights key, rfl, RuleSummary.counts_eq _ _⟩,
    fun key bindings profile report h i hi hvalue =>
      agrees_of_generate hpolicy hshows h hi hvalue⟩
  -- the same patterns are listed in the same order
  have hlist : (run config ops').stores.patterns.list tenant =
      (run config ops).stores.patterns.list tenant := by
    have hmap := Owned.map_list_eq (f := id) fun key => congrArg (Option.map id) (hget key)
    rwa [List.map_id, List.map_id] at hmap
  rw [see_insights hattempts, hlist, hinsights]
  rfl

/-- What is answered when tiles are quoted for ten square meters. -/
def tilesQuoted : Event :=
  see .standard (run .standard firstQuote) (.generate "acme" tiles.ruleKey
    (Table.ofList [("areaM2", .number (.whole 10))]) "standard")

/-- One correction has been learned: all views tell of it, and a second one takes it farther. -/
theorem views_run_firstQuote :
    Config.standard.fault? = none ∧
      (∃ is i report, (see .standard (run .standard firstQuote) (.insights "acme")).answer =
          .ok (.insights is) ∧ i ∈ is ∧ i.key = tiles ∧ i.tier = .low ∧
        tilesQuoted.report? = some report ∧ report.items.map Item.item = ["tile"] ∧
        ∀ line ∈ report.items, line.tuning.samples = i.samples ∧ line.tuning.applied = false) ∧
      (Policy.standard.standing
          ((run .standard firstQuote).stores.patterns.get "acme" tiles)).AtMost
        (Policy.standard.standing ((run .standard (firstQuote ++ firstQuote)).stores.patterns.get
          "acme" tiles)) := by
  have hconfig : Config.standard.fault? = none := by decide
  obtain ⟨-, hviews, hstanding⟩ := views_run .standard hconfig firstQuote
  refine ⟨hconfig, ?_, hstanding "acme" tiles firstQuote (by simp [firstQuote])⟩
  have hsome : (see .standard (run .standard firstQuote)
      (.insights "acme")).answer.toOption.isSome := by decide +kernel
  have hfits : (see .standard (run .standard firstQuote) (.insights "acme")).answer ≠
      .error .overflow := by
    intro h
    rw [h] at hsome
    cases hsome
  obtain ⟨is, hanswer, hshows, hstands, -, -, hlines⟩ := hviews "acme" hfits
  have hlearned : ((run .standard firstQuote).stores.patterns.get "acme" tiles).isSome := by
    decide +kernel
  obtain ⟨p, hp⟩ := Option.isSome_iff_exists.1 hlearned
  obtain ⟨i, hi, hkey⟩ := hshows.complete tiles p hp
  have htier : i.tier = .low := by
    have hlow : (Policy.standard.standing
        ((run .standard firstQuote).stores.patterns.get "acme" tiles)).tier = .low := by
      decide +kernel
    have hstanding := hstands i hi
    rw [hkey] at hstanding
    exact (congrArg Standing.tier hstanding).trans hlow
  -- nobody knows a price, but the quantity has a value
  have hquoted : (tilesQuoted.report?.map fun r => (r.items.map Item.item,
      r.failures.map Failure.stage)) = some (["tile"], [.pricing]) := by decide +kernel
  obtain ⟨report, hreport, hparts⟩ := Option.map_eq_some_iff.1 hquoted
  obtain ⟨hitems, hstages⟩ := Prod.mk.inj hparts
  refine ⟨is, i, report, hanswer, hi, hkey, htier, hreport, hitems, fun line hline => ?_⟩
  have hname : line.item ∈ ["tile"] := hitems ▸ List.mem_map_of_mem hline
  rw [List.mem_singleton] at hname
  have hagrees := hlines _ _ _ report (Event.report?_eq_some hreport) line hline fun f hf h => by
    have hstage : f.stage ∈ [Stage.pricing] := hstages ▸ List.mem_map_of_mem hf
    rw [h.1] at hstage
    exact absurd hstage (by decide)
  obtain ⟨hsamples, hsame⟩ := hagrees.learned i hi (by rw [hkey]) (by rw [hkey, hname]; rfl)
  refine ⟨hsamples, Bool.eq_false_iff.2 fun happlied => ?_⟩
  have htold := hagrees.applied_iff.1 happlied
  rw [hsame, htier] at htold
  exact absurd htold (by decide)

end Service
end Estimating
