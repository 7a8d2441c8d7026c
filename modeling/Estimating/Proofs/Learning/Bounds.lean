/-
The bounds of a policy and the factors that are learned under it.

A factor is brought between the bounds and then rounded to three fraction digits, so it ends between
the rounded bounds.  It lies between the bounds themselves only if rounding takes neither of them
outwards: a lower bound of 0.8004 is rounded to 0.800, and a pattern shows that factor although a
line of a quote is multiplied by 0.8004.

* `Pattern.Within` — the factor and the samples of a pattern lie between two numbers;
* `Pattern.Learned.within_rounded` — **they lie between the rounded bounds**;
* `Policy.RoundsInward` — rounding takes neither bound outwards;
* `Learning.recent_run_singleton` — the window after one recording, and
  `Learning.roundsInward_of_within` — two recordings that reach the bounds;
* `Pattern.UsedAs` — the number by which a line is multiplied, and `Pattern.Within.usedAs`;
* `Learning.within_run_iff` — **the bounds hold exactly if rounding takes neither outwards**, and
  then the factor shown is the factor used.
-/
import Estimating.Proofs.Learning.Calls
import Estimating.Proofs.Learning.Insights
import Estimating.Proofs.Learning.Median
import Estimating.Proofs.Service.Lines

set_option autoImplicit false

namespace Estimating

/-! ### Between the rounded bounds -/

/-- The factor of a pattern and the samples of its window lie between two numbers. -/
structure Pattern.Within (lo hi : Decimal) (p : Pattern) : Prop where
  factor : lo ≤ p.factor ∧ p.factor ≤ hi
  recent : ∀ x ∈ p.recent, lo ≤ x ∧ x ≤ hi

theorem Pattern.Within.mono {lo hi lo' hi' : Decimal} {p : Pattern} (h : p.Within lo hi)
    (hlo : lo' ≤ lo) (hhi : hi ≤ hi') : p.Within lo' hi' where
  factor := ⟨Decimal.le_trans hlo h.factor.1, Decimal.le_trans h.factor.2 hhi⟩
  recent x hx := ⟨Decimal.le_trans hlo (h.recent x hx).1, Decimal.le_trans (h.recent x hx).2 hhi⟩

namespace Policy

variable {policy : Policy}

/-- What is clamped and then rounded lies between the rounded bounds. -/
theorem Valid.round_clamp_within (hpolicy : policy.Valid) {x y : Decimal}
    (h : (policy.clamp x).map .roundFactor = some y) :
    policy.minFactor.roundFactor ≤ y ∧ y ≤ policy.maxFactor.roundFactor := by
  rw [hpolicy.clamp_eq, Option.map_some, Option.some.injEq] at h
  subst h
  exact ⟨Decimal.roundTo_mono (Decimal.le_clamp hpolicy.minFactor_le_maxFactor) (by decide),
    Decimal.roundTo_mono (Decimal.clamp_le hpolicy.minFactor_le_maxFactor) (by decide)⟩

/-- Rounding to three fraction digits takes neither bound outwards. -/
def RoundsInward (policy : Policy) : Prop :=
  policy.minFactor ≤ policy.minFactor.roundFactor ∧ policy.maxFactor.roundFactor ≤ policy.maxFactor

instance (policy : Policy) : Decidable policy.RoundsInward :=
  inferInstanceAs (Decidable (_ ∧ _))

/-- Bounds that are written with three fraction digits stay what they are. -/
example : standard.RoundsInward := by decide +kernel

end Policy

/-- **What has been learned lies between the rounded bounds.** -/
theorem Pattern.Learned.within_rounded {policy : Policy} (hpolicy : policy.Valid)
    {es : List Edit} {samples : List Decimal} {p : Pattern}
    (hsamples : (es.map fun e => policy.sample e.1 e.2) = samples.map some)
    (h : p.Learned policy samples) :
    p.Within policy.minFactor.roundFactor policy.maxFactor.roundFactor := by
  refine ⟨?_, fun x hx => ?_⟩
  · obtain ⟨y, hy, hfactor⟩ := Option.map_eq_some_iff.1 h.factor
    obtain ⟨m, -, hclamp⟩ := Option.bind_eq_some_iff.1 hy
    exact hpolicy.round_clamp_within (x := m) (by rw [hclamp, Option.map_some, hfactor])
  · rw [h.recent] at hx
    have hmem : some x ∈ es.map fun e => policy.sample e.1 e.2 := by
      rw [hsamples]
      exact List.mem_map_of_mem (List.mem_of_mem_drop hx)
    obtain ⟨e, -, he⟩ := List.mem_map.1 hmem
    exact hpolicy.round_clamp_within he

/-! ### The factor that is used -/

/-- The line with its base quantity multiplied by a factor. -/
def Item.scaledBy (i : Item) (factor : Decimal) (tier : Tier) (samples : Nat) : Option Item := do
  let plain ← i.setQty i.baseQty
  let tuned ← plain.setQty (← plain.baseQty.mul factor)
  return { tuned with tuning := ⟨true, some factor, tier, samples⟩ }

/-- Once a pattern has samples enough, lines are multiplied by `factor`. -/
def Pattern.UsedAs (policy : Policy) (factor : Decimal) (p : Pattern) : Prop :=
  policy.minSamples ≤ p.samples →
    ∀ i : Item, i.tune (some p) policy =
      i.scaledBy factor (policy.confidence p.samples).tier p.samples

/-- Lines are multiplied by the clamped factor of a pattern. -/
theorem Pattern.usedAs_clamp {policy : Policy} (hpolicy : policy.Valid) (p : Pattern) :
    p.UsedAs policy (p.factor.clamp policy.minFactor policy.maxFactor) := by
  intro henough i
  rw [Item.tune, Item.scaledBy]
  refine congrArg (Option.bind (i.setQty i.baseQty)) (funext fun plain => ?_)
  simp only [if_pos henough, Item.multiply, hpolicy.clamp_eq]
  rfl

/-- A factor between the bounds is used as it is. -/
theorem Pattern.Within.usedAs {policy : Policy} (hpolicy : policy.Valid) {p : Pattern}
    (h : p.Within policy.minFactor policy.maxFactor) : p.UsedAs policy p.factor := by
  have hclamp : p.factor.clamp policy.minFactor policy.maxFactor = p.factor := by
    rw [Decimal.clamp, if_neg (Decimal.not_lt.2 h.factor.1), if_neg (Decimal.not_lt.2 h.factor.2)]
  exact hclamp ▸ p.usedAs_clamp hpolicy

namespace Learning

open Service World

variable {policy : Policy}

/-! ### Recordings that reach the bounds -/

/-- The window after one recording. -/
theorem recent_run_singleton (hpolicy : policy.Valid) (tenant : TenantId) (key : PatternKey)
    (old new : Decimal) (now : Timestamp) :
    ∃ p, (run policy [.record tenant key old new now]).stores.patterns.get tenant key = some p ∧
      (policy.sample old new).map ([·]) = some p.recent := by
  let sample := (changeFactor old new).clamp policy.minFactor policy.maxFactor
  let q : Sampling := ⟨tenant, key, sample, policy, now⟩
  have hsample : policy.clamp (changeFactor old new) = some sample := hpolicy.clamp_eq _
  have hnext : q.observe (Stores.empty.patterns.get tenant key) =
      some (.seed tenant key sample.roundFactor now) := by
    have hnone : Stores.empty.patterns.get tenant key = none := Std.ExtTreeMap.getElem?_empty
    rw [hnone]
    rfl
  have hrecord : ((Call.record tenant key old new now).perform policy).run.run (.of .empty) =
      (_, .of _) :=
    (record_calm_of_observe_eq_some PatternStore.placed_empty hpolicy.maxAttempts_ne_zero hsample
      hnext).map_run _
  refine ⟨(Pattern.seed tenant key sample.roundFactor now).versioned
    (Stores.empty.patterns.versionAt tenant key + 1), ?_, ?_⟩
  · rw [run, after, List.foldl_cons, hrecord, List.foldl_nil]
    exact (PatternStore.get_insert_versioned ..).trans (if_pos rfl)
  · rw [Policy.sample, hsample]
    rfl

theorem units_le_largest (x : Decimal) : x.units ≤ Decimal.largest.units := by
  have hcoeff : x.coeff ≤ 2 ^ 96 - 1 := by
    have := x.coeff_lt
    omega
  have hpow : (10 : Int) ^ (28 - x.scale) ≤ 10 ^ 28 :=
    pow_le_pow_right₀ (by decide) (Nat.sub_le _ _)
  calc x.coeff * 10 ^ (28 - x.scale)
    _ ≤ (2 ^ 96 - 1) * 10 ^ (28 - x.scale) :=
        Int.mul_le_mul_of_nonneg_right hcoeff (Int.le_of_lt (Decimal.pow_pos _))
    _ ≤ (2 ^ 96 - 1) * 10 ^ 28 := Int.mul_le_mul_of_nonneg_left hpow (by decide)
    _ = Decimal.largest.units := by decide +kernel

/-- A quantity that is corrected to nothing counts as the lower bound. -/
theorem sample_one_zero (hpolicy : policy.Valid) :
    policy.sample .one .zero = some policy.minFactor.roundFactor := by
  have hfactor : changeFactor .one .zero = .zero := by decide +kernel
  rw [Policy.sample, hfactor, hpolicy.clamp_eq, Decimal.clamp, if_pos hpolicy.minFactor_pos]
  rfl

/-- A change by the largest factor of all counts as the upper bound. -/
theorem sample_of_changeFactor_eq_largest (hpolicy : policy.Valid) {old new : Decimal}
    (hfactor : changeFactor old new = .largest) :
    policy.sample old new = some policy.maxFactor.roundFactor := by
  have hmin : ¬ Decimal.largest < policy.minFactor :=
    Decimal.not_lt.2 (Decimal.le_iff_units.2 (units_le_largest _))
  rw [Policy.sample, hfactor, hpolicy.clamp_eq, Decimal.clamp, if_neg hmin]
  split
  · rfl
  · next hmax =>
      -- then the upper bound has the same value
      have hle := Decimal.le_iff_units.1 (Decimal.not_lt.1 hmax)
      have hunits : Decimal.largest.units = policy.maxFactor.units :=
        Int.le_antisymm hle (units_le_largest _)
      exact congrArg some (Decimal.roundTo_congr hunits (by decide))

/-- A quantity that is corrected to the largest of all counts as the upper bound. -/
theorem sample_one_largest (hpolicy : policy.Valid) :
    policy.sample .one .largest = some policy.maxFactor.roundFactor :=
  sample_of_changeFactor_eq_largest hpolicy (by decide +kernel)

/-- If whatever is learned lies between the bounds, rounding takes neither of them outwards. -/
theorem roundsInward_of_within (hpolicy : policy.Valid)
    (h : ∀ calls tenant key p, (run policy calls).stores.patterns.get tenant key = some p →
      p.Within policy.minFactor policy.maxFactor) : policy.RoundsInward := by
  have hreach {new bound : Decimal} (hsample : policy.sample .one new = some bound) :
      policy.minFactor ≤ bound ∧ bound ≤ policy.maxFactor := by
    obtain ⟨p, hp, hrecent⟩ :=
      recent_run_singleton hpolicy "acme" tiles .one new Timestamp.epoch
    rw [hsample, Option.map_some, Option.some.injEq] at hrecent
    exact (h _ _ _ p hp).recent bound (hrecent ▸ List.mem_singleton_self bound)
  exact ⟨(hreach (sample_one_zero hpolicy)).1, (hreach (sample_one_largest hpolicy)).2⟩

/-! ### Runs -/

/-- What is remembered of edits lies between the rounded bounds. -/
theorem within_rounded_of_remembers (hpolicy : policy.Valid) {es : List Edit} {p : Pattern}
    (h : Remembers policy es (some p)) :
    p.Within policy.minFactor.roundFactor policy.maxFactor.roundFactor := by
  obtain ⟨-, samples, hsamples, hlearned⟩ := h
  exact hlearned.within_rounded hpolicy hsamples

theorem within_rounded_run (hpolicy : policy.Valid) {calls : List Call} {tenant : TenantId}
    {key : PatternKey} {p : Pattern}
    (hp : (run policy calls).stores.patterns.get tenant key = some p) :
    p.Within policy.minFactor.roundFactor policy.maxFactor.roundFactor := by
  obtain ⟨s, hs, -, h⟩ := remembers_run hpolicy calls
  have hget : s.patterns.get tenant key = some p := by rw [← hp, hs]; rfl
  exact within_rounded_of_remembers hpolicy (hget ▸ h tenant key)

/-- What is shown after a run is the factor of the pattern that is stored. -/
theorem exists_pattern_of_insight (hpolicy : policy.Valid) {calls : List Call} {tenant : TenantId}
    {is : List Insight} {w : World}
    (h : (insights policy tenant).run.run (run policy calls) = (.ok is, w)) {i : Insight}
    (hi : i ∈ is) :
    ∃ p, (run policy calls).stores.patterns.get tenant i.key = some p ∧ i.factor = p.factor := by
  obtain ⟨s, hs, hplaced, -⟩ := remembers_run hpolicy calls
  rw [hs] at h ⊢
  have hyields := h.symm.trans (yields_insights policy tenant s)
  cases hshown : Estimating.insights (s.patterns.list tenant) policy with
  | none =>
      rw [hshown] at hyields
      cases hyields
  | some shown =>
      rw [hshown] at hyields
      cases hyields
      obtain ⟨p, hp, hofPattern⟩ := (mem_insights_iff hshown).1 hi
      obtain ⟨words, -, rfl⟩ := Option.map_eq_some_iff.1 hofPattern
      obtain ⟨key, hget⟩ := Owned.mem_list.1 hp
      obtain ⟨-, hkey⟩ := Owned.mk.inj (hplaced tenant key p hget)
      exact ⟨p, hkey ▸ hget, rfl⟩

/-- **The bounds of a policy hold for what is learned if and only if rounding to three fraction
digits takes neither of them outwards.**  Under every valid policy the factor and the window of
every pattern lie between the rounded bounds, whatever has been recorded and forgotten.  If these
are between the bounds, the factor that is shown among the insights or told after a correction is
the number by which lines are multiplied under that pattern. -/
theorem within_run_iff (policy : Policy) (h : policy.fault? = none) :
    (∀ calls tenant key p, (run policy calls).stores.patterns.get tenant key = some p →
      p.Within policy.minFactor.roundFactor policy.maxFactor.roundFactor) ∧
    ((∀ calls tenant key p, (run policy calls).stores.patterns.get tenant key = some p →
      p.Within policy.minFactor policy.maxFactor) ↔ policy.RoundsInward) ∧
    (policy.RoundsInward →
      (∀ calls tenant is w,
        (insights policy tenant).run.run (run policy calls) = (.ok is, w) → ∀ i ∈ is,
        ∃ p, (run policy calls).stores.patterns.get tenant i.key = some p ∧
          i.factor = p.factor ∧ p.UsedAs policy i.factor) ∧
      ∀ config ops tenant r id now entry factor samples tier, config.fault? = none →
        config.tuning = policy →
        (see config (Service.run config ops) (.correct tenant r id now)).answer =
          .ok (.outcome (.logged entry (.updated factor samples tier))) →
        ∃ key p, key.item = r.item ∧
          (Service.run config (ops ++ [.correct tenant r id now])).stores.patterns.get tenant key =
            some p ∧
          p.factor = factor ∧ p.UsedAs policy factor) := by
  have hpolicy := Policy.fault?_eq_none h
  refine ⟨fun _ _ _ _ => within_rounded_run hpolicy, ⟨roundsInward_of_within hpolicy, ?_⟩, ?_⟩
  · intro hround calls tenant key p hp
    exact (within_rounded_run hpolicy hp).mono hround.1 hround.2
  · refine fun hround => ⟨?shown, ?told⟩
    case shown =>
      intro calls tenant is w hshown i hi
      obtain ⟨p, hp, hfactor⟩ := exists_pattern_of_insight hpolicy hshown hi
      refine ⟨p, hp, hfactor, hfactor ▸ Pattern.Within.usedAs hpolicy ?_⟩
      exact (within_rounded_run hpolicy hp).mono hround.1 hround.2
    case told =>
      rintro config ops tenant r id now entry factor samples tier - rfl htold
      obtain ⟨key, p, -, hitem, hp, rfl, -⟩ := exists_pattern_of_updated hpolicy ops htold
      have hremembers :=
        Service.remembers_run hpolicy tenant key (ops ++ [.correct tenant r id now])
      rw [hp] at hremembers
      refine ⟨key, p, hitem, hp, rfl, Pattern.Within.usedAs hpolicy ?_⟩
      exact (within_rounded_of_remembers hpolicy hremembers).mono hround.1 hround.2

/-- One correction from ten to one. -/
def steepFall : List Call := [.record "acme" tiles (.whole 10) (.whole 1) .epoch]

/-- Under the standard policy it counts as the lower bound. -/
theorem within_run_standard :
    Policy.standard.fault? = none ∧ Policy.standard.RoundsInward ∧
      ∃ p, (run .standard steepFall).stores.patterns.get "acme" tiles = some p ∧
        p.Within Policy.standard.minFactor Policy.standard.maxFactor := by
  have hfault : Policy.standard.fault? = none := by decide
  have hround : Policy.standard.RoundsInward := by decide +kernel
  obtain ⟨p, hp, -⟩ := recent_run_singleton (Policy.fault?_eq_none hfault) "acme" tiles (.whole 10)
    (.whole 1) .epoch
  exact ⟨hfault, hround, p, hp, (within_run_iff .standard hfault).2.1.2 hround _ _ _ p hp⟩

/-- A lower bound of 0.8004. -/
def fineBound : Policy :=
  { Policy.standard with minFactor := .ofBits 8004 4 (by decide), minSamples := 1 }

/-- A line of ten hours at a price of one. -/
def tenHours : Item where
  kind := .labor
  item := "tile"
  description := "Tiling"
  qty := .hundredths 1000
  baseQty := .hundredths 1000
  unit := "hour"
  unitPrice := .hundredths 100
  lineTotal := .hundredths 1000
  confidence := .high
  tuning := .untuned
  warning := none

/-- The policy is valid, but the factor stored and shown is 0.800, and so is the sample: they are
below the bound.  Lines are multiplied by the bound. -/
theorem not_within_run_fineBound :
    fineBound.fault? = none ∧
      ((insights fineBound "acme").run.run (run fineBound steepFall)).1.toOption.map
        (List.map Insight.factor) = some [.ofBits 800 3 (by decide)] ∧
      ∃ p, (run fineBound steepFall).stores.patterns.get "acme" tiles = some p ∧
        p.factor = .ofBits 800 3 (by decide) ∧ p.recent = [.ofBits 800 3 (by decide)] ∧
        p.factor < fineBound.minFactor ∧
        ¬ p.Within fineBound.minFactor fineBound.maxFactor ∧ ¬ p.UsedAs fineBound p.factor ∧
        p.UsedAs fineBound fineBound.minFactor := by
  have hfault : fineBound.fault? = none := by decide
  have hseen : ((run fineBound steepFall).stores.patterns.get "acme" tiles).map
      (fun p => (p.factor, p.recent, p.samples)) =
        some (.ofBits 800 3 (by decide), [.ofBits 800 3 (by decide)], 1) := by decide +kernel
  obtain ⟨p, hp, hseen⟩ := Option.map_eq_some_iff.1 hseen
  obtain ⟨hfactor, hparts⟩ := Prod.mk.inj hseen
  obtain ⟨hrecent, hsamples⟩ := Prod.mk.inj hparts
  have hbelow : p.factor < fineBound.minFactor := by
    rw [hfactor]
    decide +kernel
  have hused : p.UsedAs fineBound fineBound.minFactor := by
    have hclamp := p.usedAs_clamp (Policy.fault?_eq_none hfault)
    rwa [Decimal.clamp, if_pos hbelow] at hclamp
  refine ⟨hfault, by decide +kernel, p, hp, hfactor, hrecent, hbelow, ?_, ?_, hused⟩
  · exact fun h => Decimal.not_lt.2 h.factor.1 hbelow
  · intro h
    have henough : fineBound.minSamples ≤ p.samples := by
      rw [hsamples]
      decide
    have hsame := (h henough tenHours).symm.trans (hused henough tenHours)
    rw [hfactor, hsamples] at hsame
    exact absurd hsame (by decide +kernel)

end Learning
end Estimating
