/-
What is shown of the patterns of a tenant.

Insights are sorted by their samples and then by their keys.  No two of them have the same key, so
there is only one such order, and what is shown depends on nothing but the patterns.  All of the
measures shown with a pattern grow with its samples.

* `Insight.Above` — one insight is shown above another; it is a strict order;
* `isSome_insights_iff`, `mem_insights_iff` — which patterns can be shown, and what is shown of
  them;
* `pairwise_insights` — **insights are strictly ordered**, and `insights_filter` — the insights of
  one rule are those of all that have its key;
* `RuleSummary.counts_eq` — the tiers share out the items of a summary;
* `Standing`, `Policy.standing`, `Insight.standing` — samples, tier, score and state together;
* `Policy.standing_le` — **no measure falls as the samples grow**.
-/
import Estimating.Proofs.Decimal.Rounding
import Estimating.Proofs.Quote.Drafts
import Estimating.Learning.Insight
import Estimating.Learning.Store
import Mathlib.Data.List.Sort

set_option autoImplicit false

namespace Estimating

/-! ### The order of insights -/

namespace Insight

/-- One insight is shown above another: it has more samples, or as many and the smaller key. -/
def Above (a b : Insight) : Prop :=
  b.samples < a.samples ∨ a.samples = b.samples ∧ compare a.key b.key = .lt

theorem Above.asymm {a b : Insight} (h : a.Above b) : ¬ b.Above a := by
  rintro (hsamples | ⟨hsamples, hkey⟩)
  · rcases h with h | ⟨h, -⟩ <;> omega
  · rcases h with h | ⟨-, h⟩
    · omega
    · exact Std.OrientedCmp.not_lt_of_lt h hkey

instance : Std.Irrefl Above := ⟨fun _ h => h.asymm h⟩

instance : Std.Antisymm Above := ⟨fun _ _ h h' => absurd h' h.asymm⟩

theorem precedes_iff {a b : Insight} : a.precedes b = true ↔
    b.samples < a.samples ∨ a.samples = b.samples ∧ (compare a.key b.key).isLE = true := by
  simp [precedes]

theorem precedes_trans (a b c : Insight) (h : a.precedes b = true) (h' : b.precedes c = true) :
    a.precedes c = true := by
  rw [precedes_iff] at *
  rcases h with h | ⟨h, hkey⟩
  · rcases h' with h' | ⟨h', -⟩ <;> omega
  · rcases h' with h' | ⟨h', hkey'⟩
    · omega
    · exact .inr ⟨h.trans h', Std.TransCmp.isLE_trans hkey hkey'⟩

theorem precedes_total (a b : Insight) : (a.precedes b || b.precedes a) = true := by
  rw [Bool.or_eq_true, precedes_iff, precedes_iff]
  rcases Nat.lt_trichotomy a.samples b.samples with h | h | h
  · exact .inr (.inl h)
  · have hswap : compare a.key b.key = (compare b.key a.key).swap := Std.OrientedCmp.eq_swap
    cases hkey : compare b.key a.key with
    | gt => exact .inl (.inr ⟨h, by rw [hswap, hkey]; rfl⟩)
    | eq => exact .inr (.inr ⟨h.symm, rfl⟩)
    | lt => exact .inr (.inr ⟨h.symm, rfl⟩)
  · exact .inl (.inl h)

/-- Of two insights with keys of their own the one shown before is above the other. -/
theorem above_of_precedes {a b : Insight} (h : a.precedes b = true) (hkey : a.key ≠ b.key) :
    a.Above b := by
  rcases precedes_iff.1 h with h | ⟨h, hle⟩
  · exact .inl h
  · rcases Ordering.isLE_iff_eq_lt_or_eq_eq.1 hle with hlt | heq
    · exact .inr ⟨h, hlt⟩
    · exact absurd (Std.LawfulEqOrd.eq_of_compare heq) hkey

variable {policy : Policy} {p : Pattern} {i : Insight}

theorem key_of_ofPattern (h : ofPattern policy p = some i) : i.key = p.key := by
  obtain ⟨_, -, rfl⟩ := Option.map_eq_some_iff.1 h
  rfl

end Insight

/-! ### The insights of patterns -/

section Insights

variable {patterns : List Pattern} {policy : Policy} {is : List Insight}

/-- Patterns are shown unless there are no words for a factor. -/
theorem isSome_insights_iff : (insights patterns policy).isSome ↔
    ∀ p ∈ patterns, (Insight.ofPattern policy p).isSome := by
  rw [insights, Option.isSome_map, isSome_mapM_iff]

/-- What is shown of patterns. -/
theorem mem_insights_iff (h : insights patterns policy = some is) {i : Insight} :
    i ∈ is ↔ ∃ p ∈ patterns, Insight.ofPattern policy p = some i := by
  obtain ⟨shown, hshown, rfl⟩ := Option.map_eq_some_iff.1 h
  rw [List.mem_mergeSort]
  have hpairs := mapM_eq_some_iff.1 hshown
  constructor
  · intro hi
    obtain ⟨p, hp, hi⟩ := exists_mem_zip hpairs.flip hi
    exact ⟨p, (List.of_mem_zip hp).2, hi⟩
  · rintro ⟨p, hp, hi⟩
    obtain ⟨j, hj, hpj⟩ := exists_mem_zip hpairs hp
    obtain rfl := Option.some.inj (hi.symm.trans hpj)
    exact (List.of_mem_zip hj).2

/-- The keys of insights are those of the patterns, one after the other. -/
theorem map_key_of_mapM {shown : List Insight}
    (h : patterns.mapM (Insight.ofPattern policy) = some shown) :
    shown.map Insight.key = patterns.map Pattern.key := by
  have hpairs := mapM_eq_some_iff.1 h
  clear h
  induction hpairs with
  | nil => rfl
  | cons hp _ ih => rw [List.map_cons, List.map_cons, Insight.key_of_ofPattern hp, ih]

/-- **Insights are strictly ordered**, if the patterns have keys of their own. -/
theorem pairwise_insights (hkeys : (patterns.map Pattern.key).Nodup)
    (h : insights patterns policy = some is) : is.Pairwise Insight.Above := by
  obtain ⟨shown, hshown, rfl⟩ := Option.map_eq_some_iff.1 h
  have hnodup : (shown.map Insight.key).Nodup := map_key_of_mapM hshown ▸ hkeys
  have hdistinct : (shown.mergeSort Insight.precedes).Pairwise fun a b => a.key ≠ b.key :=
    ((List.mergeSort_perm shown Insight.precedes).pairwise_iff Ne.symm).2
      (List.pairwise_map.1 hnodup)
  exact (List.pairwise_mergeSort Insight.precedes_trans Insight.precedes_total shown).imp₂
    (fun _ _ => Insight.above_of_precedes) hdistinct

/-- The insights of some of the patterns are among those of all, in the same order. -/
theorem insights_filter (hkeys : (patterns.map Pattern.key).Nodup) (keep : PatternKey → Bool)
    (h : insights patterns policy = some is) :
    insights (patterns.filter fun p => keep p.key) policy =
      some (is.filter fun i => keep i.key) := by
  have hall := isSome_insights_iff.1 (Option.isSome_iff_exists.2 ⟨is, h⟩)
  have hkept : (insights (patterns.filter fun p => keep p.key) policy).isSome :=
    isSome_insights_iff.2 fun p hp => hall p (List.mem_filter.1 hp).1
  obtain ⟨kept, hsome⟩ := Option.isSome_iff_exists.1 hkept
  rw [hsome]
  refine congrArg some (List.Pairwise.eq_of_mem_iff (r := Insight.Above)
    (pairwise_insights (hkeys.sublist (List.filter_sublist.map _)) hsome)
    ((pairwise_insights hkeys h).filter _) fun i => ?_)
  rw [mem_insights_iff hsome, List.mem_filter, mem_insights_iff h]
  constructor
  · rintro ⟨p, hp, hi⟩
    obtain ⟨hp, hkeep⟩ := List.mem_filter.1 hp
    exact ⟨⟨p, hp, hi⟩, by rw [Insight.key_of_ofPattern hi, hkeep]⟩
  · rintro ⟨⟨p, hp, hi⟩, hkeep⟩
    exact ⟨p, List.mem_filter.2 ⟨hp, by rw [← Insight.key_of_ofPattern hi, hkeep]⟩, hi⟩

end Insights

/-- **The tiers share out the items of a summary.** -/
theorem RuleSummary.counts_eq (key : RuleKey) (items : List Insight) :
    (ofInsights key items).high + (ofInsights key items).medium + (ofInsights key items).low =
      (ofInsights key items).total := by
  simp only [ofInsights]
  induction items with
  | nil => rfl
  | cons i items ih =>
      simp only [List.countP_cons, List.length_cons]
      cases i.tier <;> simp <;> omega

/-! ### Measures of what has been learned -/

/-- Under the same thresholds more samples make no lower tier. -/
theorem Confidence.tier_mono {c d : Confidence} (hmedium : c.mediumAt = d.mediumAt)
    (hhigh : c.highAt = d.highAt) (h : c.samples ≤ d.samples) : c.tier.rank ≤ d.tier.rank := by
  unfold tier
  split_ifs <;> simp only [Tier.rank] <;> omega

/-- How far learning has come for an item, in all the measures that are shown. -/
structure Standing where
  samples : Nat
  tier : Tier
  score : Decimal
  state : PatternStage
deriving DecidableEq, Repr

/-- In no measure has one come farther than the other. -/
structure Standing.AtMost (a b : Standing) : Prop where
  samples : a.samples ≤ b.samples
  tier : a.tier.rank ≤ b.tier.rank
  score : a.score ≤ b.score
  state : a.state.rank ≤ b.state.rank

theorem Standing.AtMost.refl (a : Standing) : a.AtMost a :=
  ⟨Nat.le_refl _, Nat.le_refl _, Decimal.le_iff_units.2 (Int.le_refl _), Nat.le_refl _⟩

theorem Standing.AtMost.trans {a b c : Standing} (h : a.AtMost b) (h' : b.AtMost c) :
    a.AtMost c where
  samples := h.samples.trans h'.samples
  tier := h.tier.trans h'.tier
  score := Decimal.le_iff_units.2 (Int.le_trans (Decimal.le_iff_units.1 h.score)
    (Decimal.le_iff_units.1 h'.score))
  state := h.state.trans h'.state

/-- The measures that an insight shows. -/
def Insight.standing (i : Insight) : Standing := ⟨i.samples, i.tier, i.score, i.state⟩

namespace Policy

/-- The measures of a pattern, the least of all if there is none. -/
def standing (policy : Policy) : Option Pattern → Standing
  | none => ⟨0, .low, .zero, .absent⟩
  | some p => {
      samples := p.samples
      tier := (policy.confidence p.samples).tier
      score := (policy.confidence p.samples).score
      state := .ofSamples p.samples policy.highSamples }

variable (policy : Policy)

theorem standing_of_ofPattern {policy : Policy} {p : Pattern} {i : Insight}
    (h : Insight.ofPattern policy p = some i) : i.standing = policy.standing (some p) := by
  obtain ⟨_, -, rfl⟩ := Option.map_eq_some_iff.1 h
  rfl

theorem tier_mono {m n : Nat} (h : m ≤ n) :
    (policy.confidence m).tier.rank ≤ (policy.confidence n).tier.rank :=
  Confidence.tier_mono rfl rfl h

/-- The score is so many hundredths, without samples too. -/
theorem units_score (n : Nat) :
    (policy.confidence n).score.units = Confidence.hundredths n * 10 ^ 26 := by
  unfold Confidence.score
  split_ifs with hn
  · obtain rfl : n = 0 := hn
    rfl
  · rfl

theorem score_mono {m n : Nat} (h : m ≤ n) :
    (policy.confidence m).score ≤ (policy.confidence n).score := by
  rw [Decimal.le_iff_units, units_score, units_score]
  unfold Confidence.hundredths
  split_ifs <;> omega

theorem state_mono {m n : Nat} (highAt : Nat) (h : m ≤ n) :
    (PatternStage.ofSamples m highAt).rank ≤ (PatternStage.ofSamples n highAt).rank := by
  unfold PatternStage.ofSamples
  split_ifs <;> simp only [PatternStage.rank] <;> omega

/-- There is nothing less than nothing. -/
theorem standing_none_le (p : Option Pattern) :
    (policy.standing none).AtMost (policy.standing p) := by
  cases p with
  | none => exact .refl _
  | some p =>
      refine ⟨Nat.zero_le _, Nat.zero_le _, ?_, Nat.zero_le _⟩
      rw [Decimal.le_iff_units]
      show Decimal.zero.units ≤ (policy.confidence p.samples).score.units
      rw [units_score]
      exact Int.natCast_nonneg (Confidence.hundredths p.samples * 10 ^ 26)

/-- **No measure falls as the samples grow.** -/
theorem standing_le {p q : Pattern} (h : p.samples ≤ q.samples) :
    (policy.standing (some p)).AtMost (policy.standing (some q)) :=
  ⟨h, policy.tier_mono h, policy.score_mono h, state_mono _ h⟩

end Policy
end Estimating
