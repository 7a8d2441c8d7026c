/-
How far a pattern comes by recordings.

The number of samples of a pattern grows with every recording until it has reached the window, and
goes no further.  Whether lines are multiplied, which tier is told and which stage is reached are
three questions about that number.  A threshold beyond the window is therefore out of reach, and a
valid policy may set one.

* `Policy.reach` — how many samples are counted after so many recordings;
* `Item.Bears` — no amount on a line is too large under a factor, and `Item.exists_tune` — then the
  line can be tuned; `Item.bears_of_atMost` — quantities, factors and prices in reach;
* `Confidence.tier_eq_high_iff`, `PatternStage.ofSamples_eq_confident_iff` — when the tier is high,
  and when the stage is the last one;
* `Learning.history_eq` — if the bound on factors leaves room, every recording counts;
* `Learning.reach_run` — **what has been reached after a run**.
-/
import Estimating.Proofs.Service.Extremes
import Estimating.Proofs.Service.Moderate

set_option autoImplicit false

namespace Estimating

/-! ### Thresholds -/

/-- How many samples are counted after `n` recordings. -/
def Policy.reach (policy : Policy) (n : Nat) : Nat := min n policy.maxSamples

/-- The tier is high from the upper threshold on. -/
theorem Confidence.tier_eq_high_iff {policy : Policy} (hpolicy : policy.Valid) (samples : Nat) :
    (policy.confidence samples).tier = .high ↔ policy.highSamples ≤ samples := by
  have hmax : max policy.highSamples policy.minSamples = policy.highSamples :=
    Nat.max_eq_left hpolicy.minSamples_le
  rw [Policy.confidence, ofThresholds, hmax, tier]
  split
  · next h => exact iff_of_true rfl h
  · next h =>
      refine iff_of_false ?_ h
      split <;> nofun

/-- The stage is the last one from the upper threshold on, but not at the first sample. -/
theorem PatternStage.ofSamples_eq_confident_iff (samples highAt : Nat) :
    ofSamples samples highAt = .confident ↔ 2 ≤ samples ∧ highAt ≤ samples := by
  unfold ofSamples
  split
  · exact iff_of_false nofun (by omega)
  · split
    · exact iff_of_false nofun (by omega)
    · split
      · exact iff_of_false nofun (by omega)
      · exact iff_of_true rfl (by omega)

/-! ### Lines that can be tuned -/

namespace Item

/-- No amount on the line is too large for a decimal, neither as it is nor under the factor. -/
structure Bears (factor : Decimal) (i : Item) : Prop where
  plain : Decimal.Fits (i.baseQty.roundMoney.toRat * i.unitPrice.toRat)
  product : Decimal.Fits (i.baseQty.toRat * factor.toRat)
  tuned : ∀ qty, i.baseQty.mul factor = some qty →
    Decimal.Fits (qty.roundMoney.toRat * i.unitPrice.toRat)

/-- Such a line can be tuned. -/
theorem exists_tune {policy : Policy} (hpolicy : policy.Valid) {p : Pattern} {i : Item}
    (h : i.Bears (p.factor.clamp policy.minFactor policy.maxFactor)) :
    ∃ j, i.tune (some p) policy = some j := by
  obtain ⟨plain, hplain⟩ := Option.isSome_iff_exists.1 (setQty_isSome_iff.2 h.plain)
  have hbase := (setQty_eq_some hplain).2.1
  have hprice := (priced_of_setQty hplain).1
  rw [tune, hplain]
  show ∃ j, (if policy.minSamples ≤ p.samples then plain.multiply p policy else _) = some j
  split
  · refine Option.isSome_iff_exists.1 ((multiply_isSome_iff hpolicy).2 ?_)
    rw [hbase, hprice, Policy.tuned, hpolicy.clamp_eq, Option.bind_some]
    refine ⟨h.product, fun qty hqty => ?_⟩
    obtain ⟨product, hproduct, rfl⟩ := Option.map_eq_some_iff.1 hqty
    exact h.tuned product hproduct
  · exact ⟨_, rfl⟩

/-- A line bears all factors of a policy if quantity, factors and price are in reach. -/
theorem bears_of_atMost {policy : Policy} (hpolicy : policy.Valid) {i : Item} {q f p : Nat}
    (hbase : i.baseQty.AtMost q) (hfactor : policy.maxFactor.AtMost f)
    (hprice : i.unitPrice.AtMost p) (hproduct : q * f < Decimal.coeffBound)
    (htotal : q * f * p < Decimal.coeffBound) (factor : Decimal) :
    i.Bears (factor.clamp policy.minFactor policy.maxFactor) := by
  have hone := hpolicy.one_le_of_atMost hfactor
  refine ⟨?_, hbase.fits_mul (hpolicy.clamp_atMost hfactor _) hproduct, fun qty hqty => ?_⟩
  · exact (hbase.roundMoney.mono (Nat.le_mul_of_pos_right q hone)).fits_mul hprice htotal
  · exact (hbase.mul (hpolicy.clamp_atMost hfactor _) hqty).roundMoney.fits_mul hprice htotal

end Item

/-! ### Runs -/

namespace Learning

open Service World

variable {policy : Policy}

/-- With room, no call fails. -/
theorem Call.yields_ok {s : Stores} (hpolicy : policy.Valid) (hroom : policy.Roomy)
    (hplaced : s.patterns.Placed)
    (hwithin : ∀ tenant key p, s.patterns.get tenant key = some p →
      p.Within policy.minFactor.roundFactor policy.maxFactor.roundFactor) (c : Call) :
    ∃ s', Yields (c.perform policy).run s (.ok ()) s' := by
  cases c with
  | record tenant key old new now =>
      have hsample := hpolicy.clamp_eq (changeFactor old new)
      obtain ⟨next, hnext⟩ := Sampling.exists_observe (q := ⟨tenant, key, _, policy, now⟩) hroom
        hpolicy hsample (hwithin tenant key)
      exact ⟨_, (record_calm_of_observe_eq_some hplaced hpolicy.maxAttempts_ne_zero hsample
        hnext).map_run _⟩
  | forget tenant key => exact ⟨_, (forget_calm tenant key s).map_run _⟩

theorem historyFrom_eq (hpolicy : policy.Valid) (hroom : policy.Roomy) (calls : List Call) :
    ∀ {s : Stores} {es : TenantId → PatternKey → List Edit}, s.patterns.Placed →
      (∀ tenant key, Remembers policy (es tenant key) (s.patterns.get tenant key)) →
      historyFrom policy (.of s) calls = calls.map fun c => (c, .ok ()) := by
  induction calls with
  | nil => exact fun _ _ => rfl
  | cons c calls ih =>
      intro s es hplaced h
      obtain ⟨result, s', hyields, hplaced', hstep⟩ := c.step hpolicy hplaced
      obtain ⟨_, hok⟩ := c.yields_ok hpolicy hroom hplaced fun tenant key p hp =>
        within_rounded_of_remembers hpolicy (hp ▸ h tenant key)
      obtain rfl : result = .ok () := congrArg Prod.fst (hyields.symm.trans hok)
      have hrun : (c.perform policy).run.run (.of s) = (.ok (), .of s') := hyields
      rw [historyFrom, hrun, List.map_cons]
      exact congrArg _ (ih hplaced' fun tenant key => hstep tenant key _ (h tenant key))

/-- **With room, no call of a run fails**, so every recording counts. -/
theorem history_eq (hpolicy : policy.Valid) (hroom : policy.Roomy) (calls : List Call) :
    history policy calls = calls.map fun c => (c, .ok ()) :=
  historyFrom_eq hpolicy hroom calls PatternStore.placed_empty (remembers_empty policy)

/-- After recordings there is a pattern, and it counts as many samples as are in reach. -/
theorem exists_pattern_run (hpolicy : policy.Valid) (calls : List Call) {tenant : TenantId}
    {key : PatternKey} (h : edits tenant key (history policy calls) ≠ []) :
    ∃ p, (run policy calls).stores.patterns.get tenant key = some p ∧
      p.samples = policy.reach (edits tenant key (history policy calls)).length := by
  obtain ⟨s, hs, -, hremembers⟩ := remembers_run hpolicy calls
  rw [hs]
  have hall := hremembers tenant key
  show ∃ p, s.patterns.get tenant key = some p ∧ _
  cases hget : s.patterns.get tenant key with
  | none =>
      rw [hget] at hall
      exact absurd hall h
  | some p =>
      rw [hget] at hall
      obtain ⟨-, samples, hsamples, hlearned⟩ := hall
      have hlength := congrArg List.length hsamples
      rw [List.length_map, List.length_map] at hlength
      exact ⟨p, rfl, hlearned.count.trans (by rw [hlength, Policy.reach])⟩

/-- **What has been reached after a run**, under every valid policy.  After at least one recording
under a key since it was last forgotten there is a pattern.  The samples that it counts are the
recordings, but no more than the window.  Every line whose amounts fit can be tuned by it; lines are
multiplied by its factor exactly if that number has reached the lower threshold; the tier is high
exactly if it has reached the upper one; and the stage is the last one exactly if there are besides
at least two samples. -/
theorem reach_run (policy : Policy) (h : policy.fault? = none) (calls : List Call)
    (tenant : TenantId) (key : PatternKey)
    (hrecorded : 1 ≤ (edits tenant key (history policy calls)).length) :
    ∃ p, (run policy calls).stores.patterns.get tenant key = some p ∧
      let n := policy.reach (edits tenant key (history policy calls)).length
      let factor := p.factor.clamp policy.minFactor policy.maxFactor
      p.samples = n ∧
        (∀ i : Item, i.Bears factor → ∃ j, i.tune (some p) policy = some j) ∧
        (∀ i j : Item, i.tune (some p) policy = some j →
          (j.tuning.applied = true ↔ policy.minSamples ≤ n)) ∧
        (policy.minSamples ≤ n → ∀ i : Item,
          i.tune (some p) policy = i.scaledBy factor (policy.confidence n).tier n) ∧
        ((policy.confidence n).tier = .high ↔ policy.highSamples ≤ n) ∧
        (PatternStage.ofSamples n policy.highSamples = .confident ↔
          2 ≤ n ∧ policy.highSamples ≤ n) := by
  have hpolicy := Policy.fault?_eq_none h
  obtain ⟨p, hp, hsamples⟩ := exists_pattern_run hpolicy calls (List.ne_nil_of_length_pos hrecorded)
  refine ⟨p, hp, hsamples, fun i => Item.exists_tune hpolicy, ?_, ?_,
    Confidence.tier_eq_high_iff hpolicy _, PatternStage.ofSamples_eq_confident_iff ..⟩
  · intro i j hj
    rw [← hsamples, (Item.note_of_tune hpolicy hj).2]
    by_cases henough : policy.minSamples ≤ p.samples
    · rw [TuningNote.ofPattern_of_enough henough]
      exact iff_of_true rfl henough
    · rw [TuningNote.ofPattern_of_few henough]
      exact iff_of_false nofun henough
  · rw [← hsamples]
    exact p.usedAs_clamp hpolicy

/-- The standard policy has room. -/
theorem roomy_standard : Policy.standard.Roomy := by
  rw [Policy.Roomy]
  decide +kernel

/-- Ten hours are in reach of its factors. -/
theorem tenHours_bears (factor : Decimal) :
    tenHours.Bears (factor.clamp Policy.standard.minFactor Policy.standard.maxFactor) :=
  tenHours.bears_of_atMost (Policy.fault?_eq_none (by decide)) (q := 10) (f := 2) (p := 1)
    (by decide) (by decide) (by decide) (by decide) (by decide) factor

/-- The same correction three times. -/
def threeTimes : List Call := List.replicate 3 (.record "acme" tiles (.whole 10) (.whole 11) .epoch)

/-- Under the standard policy a line is multiplied from then on. -/
theorem reach_run_standard :
    Policy.standard.fault? = none ∧
      1 ≤ (edits "acme" tiles (history .standard threeTimes)).length ∧
      ∃ p j, (run .standard threeTimes).stores.patterns.get "acme" tiles = some p ∧
        p.samples = 3 ∧ tenHours.tune (some p) .standard = some j ∧ j.tuning.applied = true := by
  have hfault : Policy.standard.fault? = none := by decide
  have hlength : (edits "acme" tiles (history .standard threeTimes)).length = 3 := by
    rw [history_eq (Policy.fault?_eq_none hfault) roomy_standard]
    decide
  have hrecorded : 1 ≤ (edits "acme" tiles (history .standard threeTimes)).length := by omega
  obtain ⟨p, hp, hsamples, htunes, happlied, -⟩ :=
    reach_run .standard hfault threeTimes "acme" tiles hrecorded
  obtain ⟨j, hj⟩ := htunes tenHours (tenHours_bears p.factor)
  rw [hlength] at hsamples happlied
  exact ⟨hfault, hrecorded, p, j, hp, hsamples, hj, (happlied tenHours j hj).2 (by decide)⟩

/-- A window of two samples, where three are asked for. -/
def narrow : Policy := { Policy.standard with windowSize := 2, minSamples := 3, highSamples := 3 }

/-- One sample is asked for. -/
def eager : Policy := { Policy.standard with minSamples := 1, highSamples := 1 }

/-- Both policies are valid.  Under the one, three recordings do not reach a threshold of three: the
pattern counts two samples, its tier is low, it is still learning and its factor is not used.  Under
the other, one recording reaches the high tier but not the last stage. -/
theorem not_reached_narrow_eager :
    (narrow.fault? = none ∧ (edits "acme" tiles (history narrow threeTimes)).length = 3 ∧
      narrow.minSamples = 3 ∧ narrow.highSamples = 3 ∧
      ∃ p j, (run narrow threeTimes).stores.patterns.get "acme" tiles = some p ∧
        tenHours.tune (some p) narrow = some j ∧ j.tuning.applied = false ∧
        (narrow.confidence p.samples).tier = .low ∧
        PatternStage.ofSamples p.samples narrow.highSamples = .learning) ∧
    eager.fault? = none ∧ (edits "acme" tiles (history eager steepFall)).length = 1 ∧
      eager.minSamples = 1 ∧ eager.highSamples = 1 ∧
      ∃ p, (run eager steepFall).stores.patterns.get "acme" tiles = some p ∧
        (eager.confidence p.samples).tier = .high ∧
        PatternStage.ofSamples p.samples eager.highSamples = .seeded := by
  have hnarrow : narrow.Valid := Policy.fault?_eq_none (by decide)
  have heager : eager.Valid := Policy.fault?_eq_none (by decide)
  have hthree : (edits "acme" tiles (history narrow threeTimes)).length = 3 := by
    rw [history_eq hnarrow roomy_standard]
    decide
  have hone : (edits "acme" tiles (history eager steepFall)).length = 1 := by
    rw [history_eq heager roomy_standard]
    decide
  have hsome : edits "acme" tiles (history narrow threeTimes) ≠ [] :=
    List.ne_nil_of_length_pos (by omega)
  have hsome' : edits "acme" tiles (history eager steepFall) ≠ [] :=
    List.ne_nil_of_length_pos (by omega)
  obtain ⟨p, hp, hsamples⟩ := exists_pattern_run hnarrow threeTimes hsome
  obtain ⟨q, hq, hsample⟩ := exists_pattern_run heager steepFall hsome'
  rw [hthree] at hsamples
  rw [hone] at hsample
  obtain ⟨j, hj⟩ := Item.exists_tune hnarrow (tenHours_bears p.factor)
  have hfew : ¬ narrow.minSamples ≤ p.samples := by
    rw [hsamples]
    decide
  have happlied : j.tuning.applied = false := by
    rw [(Item.note_of_tune hnarrow hj).2, TuningNote.ofPattern_of_few hfew]
  refine ⟨⟨by decide, hthree, rfl, rfl, p, j, hp, hj, happlied, ?_, ?_⟩, by decide, hone, rfl, rfl,
    q, hq, ?_, ?_⟩
  · rw [hsamples]
    decide
  · rw [hsamples]
    decide
  · rw [hsample]
    decide
  · rw [hsample]
    decide

end Learning
end Estimating
