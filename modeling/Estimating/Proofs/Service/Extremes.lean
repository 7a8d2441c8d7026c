/-
Corrections of quantities of any size.

Quantities may be as small as the smallest decimal and as large as the largest.  A quotient of two
of them may be too large for a decimal, and it counts as the largest one; after that everything is
kept between the bounds of the policy.  The median of a window adds two of its entries, and all that
were ever stored lie between the rounded bounds.  So if twice the upper bound is a decimal, nothing
on the way of a correction is too large.

* `median_isSome` — the median of values of which twice the largest is a decimal;
* `Policy.Roomy` — the upper bound is below half the range of decimals, and
  `Sampling.exists_observe` — then there is always a pattern with one sample more;
* `Service.learn_roomy`, `Service.correct_roomy`, `Service.see_correct_roomy` — what a correction
  answers then;
* `Significance.isSignificant_of_div_eq_none`, `Policy.sample_of_div_eq_none` — quotients that are
  too large;
* `Service.corrections_run` — **what becomes of a correction after a run**, and
  `Service.largestThreshold_ignores` — the one threshold that such a quotient may miss.
-/
import Estimating.Proofs.Decimal.Quotients
import Estimating.Proofs.Learning.Bounds
import Estimating.Proofs.Learning.Ratios

set_option autoImplicit false

namespace Estimating

/-! ### Medians -/

/-- Two numbers of which the sum fits have a mean. -/
theorem mean_isSome {x y : Decimal} {m n : Nat} (hx : x.AtMost m) (hy : y.AtMost n)
    (h : m + n < Decimal.coeffBound) : (mean x y).isSome := by
  obtain ⟨total, htotal⟩ :=
    Option.isSome_iff_exists.1 (Decimal.add_isSome_iff.2 (hx.fits_add hy h))
  have hne : Decimal.two.toRat ≠ 0 := by rw [Decimal.toRat_two]; norm_num
  have hhalf : Decimal.Fits (total.toRat / Decimal.two.toRat) := by
    have hfits := total.fits_toRat
    unfold Decimal.Fits at hfits ⊢
    rw [Decimal.toRat_two, abs_div, abs_two]
    have := abs_nonneg total.toRat
    linarith
  rw [mean, htotal]
  exact (Decimal.div_isSome_iff hne).2 hhalf

/-- Values of which twice the largest is a decimal have a median. -/
theorem median_isSome {values : List Decimal} {b : Nat} (hne : values ≠ [])
    (h : ∀ x ∈ values, x.AtMost b) (hb : b + b < Decimal.coeffBound) :
    (median values).isSome := by
  have hperm : (sorted values).Perm values := List.mergeSort_perm _ _
  have hlength := hperm.length_eq
  have hpos : 0 < values.length := List.length_pos_iff.2 hne
  have hentry {i : Nat} (hi : i < values.length) :
      ∃ x, (sorted values)[i]? = some x ∧ x.AtMost b := by
    refine ⟨_, List.getElem?_eq_getElem (hlength ▸ hi), h _ ?_⟩
    exact hperm.mem_iff.1 (List.getElem_mem _)
  unfold median
  simp only [hlength]
  obtain ⟨upper, hupper, hupper'⟩ := hentry (by omega : values.length / 2 < values.length)
  split
  · rw [hupper]
    rfl
  · obtain ⟨lower, hlower, hlower'⟩ := hentry (by omega : values.length / 2 - 1 < values.length)
    rw [hupper, hlower]
    exact mean_isSome hlower' hupper' hb

/-- The last of the latest is the last. -/
theorem Pattern.getLast?_lastOf {α : Type} {size : Nat} (h : size ≠ 0) (items : List α) (x : α) :
    (lastOf size (items ++ [x])).getLast? = some x := by
  have hlong : ¬ (items ++ [x]).length ≤ (items ++ [x]).length - size := by
    rw [List.length_append, List.length_singleton]
    omega
  rw [lastOf, List.getLast?_drop, if_neg hlong, List.getLast?_append_cons, List.getLast?_singleton]

/-! ### Policies with room -/

namespace Policy

/-- The upper bound is below half the range of decimals. -/
def Roomy (policy : Policy) : Prop := policy.maxFactor.toRat < 2 ^ 95

variable {policy : Policy}

/-- Above a tenth of the range all decimals are whole numbers. -/
theorem Roomy.atMost (h : policy.Roomy) (hpolicy : policy.Valid) :
    policy.maxFactor.AtMost (2 ^ 95 - 1) := by
  have hsize := policy.maxFactor.size_lt
  rcases Nat.eq_zero_or_pos policy.maxFactor.scale with hscale | hscale
  · have hone : Decimal.zero ≤ policy.maxFactor :=
      Decimal.le_trans (by decide) hpolicy.le_maxFactor
    have hvalue : |policy.maxFactor.toRat| = policy.maxFactor.size := by
      rw [Decimal.toRat, Decimal.abs_mkRat, Decimal.natAbs_coeff, hscale, Nat.pow_zero,
        Nat.cast_one, div_one]
    have hlt : policy.maxFactor.size < 2 ^ 95 := by
      unfold Roomy at h
      rw [abs_of_nonneg (Decimal.le_iff_toRat.1 hone)] at hvalue
      rw [hvalue] at h
      exact_mod_cast h
    unfold Decimal.AtMost
    rw [hscale]
    omega
  · have hten : 10 ^ 1 ≤ 10 ^ policy.maxFactor.scale := Nat.pow_le_pow_right (by decide) hscale
    have hmul := Nat.mul_le_mul_left (2 ^ 95 - 1) hten
    unfold Decimal.AtMost
    omega

/-- Every sample and every factor is at most half the range. -/
theorem Roomy.atMost_of_within (h : policy.Roomy) (hpolicy : policy.Valid) {x : Decimal}
    (hx : policy.minFactor.roundFactor ≤ x ∧ x ≤ policy.maxFactor.roundFactor) :
    x.AtMost (2 ^ 95 - 1) := by
  have hzero : Decimal.zero ≤ policy.minFactor.roundFactor :=
    Decimal.le_trans (by decide : Decimal.zero ≤ Decimal.zero.roundFactor)
      (Decimal.roundTo_mono hpolicy.minFactor_nonneg (by decide))
  exact ((h.atMost hpolicy).roundTo (by decide)).of_le (Decimal.le_trans hzero hx.1) hx.2

end Policy

/-- With room, there is always a pattern with one sample more. -/
theorem Sampling.exists_observe {q : Sampling} (hroom : q.policy.Roomy) (hpolicy : q.policy.Valid)
    {x : Decimal} (hsample : q.policy.clamp x = some q.sample) {current : Option Pattern}
    (hcurrent : ∀ p, current = some p →
      p.Within q.policy.minFactor.roundFactor q.policy.maxFactor.roundFactor) :
    ∃ next, q.observe current = some next := by
  cases current with
  | none => exact ⟨_, rfl⟩
  | some p =>
      have hlast : q.sample.roundFactor.AtMost (2 ^ 95 - 1) :=
        hroom.atMost_of_within hpolicy
          (hpolicy.round_clamp_within (x := x) (by rw [hsample, Option.map_some]))
      have hwindow : ∀ y ∈ Pattern.lastOf q.policy.windowSize (p.recent ++ [q.sample.roundFactor]),
          y.AtMost (2 ^ 95 - 1) := by
        intro y hy
        rcases List.mem_append.1 (List.mem_of_mem_drop hy) with hy | hy
        · exact hroom.atMost_of_within hpolicy ((hcurrent p rfl).recent y hy)
        · rwa [List.mem_singleton.1 hy]
      have hne := Pattern.lastOf_ne_nil hpolicy.windowSize_ne_zero p.recent q.sample.roundFactor
      obtain ⟨m, hm⟩ := Option.isSome_iff_exists.1 (median_isSome hne hwindow (by decide))
      have hfactor : Pattern.factorOf q.policy p.factor
          (Pattern.lastOf q.policy.windowSize (p.recent ++ [q.sample.roundFactor])) =
          some (m.clamp q.policy.minFactor q.policy.maxFactor).roundFactor := by
        rw [Pattern.factorOf_of_ne_nil _ _ hne, hm, Option.bind_eq_bind, Option.bind_some,
          hpolicy.clamp_eq, Option.map_some]
      exact ⟨_, by rw [observe, Pattern.next, Pattern.extend, hfactor]; rfl⟩

/-! ### Quotients that are too large -/

namespace Decimal

/-- No decimal lies between the two largest ones. -/
theorem toRat_le_of_lt_largest {x : Decimal} (h : x < .largest) :
    x.toRat ≤ (coeffBound : Rat) - 2 := by
  have hlargest : largest.toRat = (coeffBound : Rat) - 1 := by decide +kernel
  have hlt := lt_iff_toRat.1 h
  rw [hlargest] at hlt
  rcases Nat.eq_zero_or_pos x.scale with hscale | hscale
  · rw [toRat, hscale, Nat.pow_zero, Rat.mkRat_one] at hlt ⊢
    have hlt' : x.coeff < (coeffBound : Int) - 1 := by exact_mod_cast hlt
    have hle : x.coeff ≤ (coeffBound : Int) - 2 := by omega
    exact_mod_cast hle
  · have hten : ((10 ^ 1 : Nat) : Rat) ≤ (10 ^ x.scale : Nat) := by
      exact_mod_cast Nat.pow_le_pow_right (by decide : 0 < 10) hscale
    have hsize : (x.size : Rat) < coeffBound := by exact_mod_cast x.size_lt
    have habs : |x.toRat| ≤ (x.size : Rat) / (10 ^ 1 : Nat) := by
      rw [toRat, abs_mkRat, natAbs_coeff]
      exact div_le_div_of_nonneg_left (Nat.cast_nonneg _) (cast_pow_pos 1) hten
    have hbound : (coeffBound : Rat) / (10 ^ 1 : Nat) ≤ (coeffBound : Rat) - 2 := by
      norm_num [coeffBound]
    have hle := (le_abs_self x.toRat).trans habs
    have := div_le_div_of_nonneg_right hsize.le (cast_pow_pos 1).le
    linarith

/-- A half more than two below the bound is rounded to the even number. -/
theorem exists_rounds_below : ∃ w : Decimal, Rounds ((coeffBound : Rat) - 5 / 2) w ∧
    w.toRat = (coeffBound : Rat) - 2 := by
  have hcast : (((coeffBound - 2 : Nat) : Int) : Rat) = (coeffBound : Rat) - 2 := by
    decide +kernel
  obtain ⟨w, hw⟩ := Option.isSome_iff_exists.1
    (show (ofParts? (coeffBound - 2 : Nat) 0).isSome by decide)
  have hvalue : w.toRat = mkRat (coeffBound - 2 : Nat) (10 ^ 0) := toRat_of_parts hw
  refine ⟨w, ⟨_, 0, ⟨by decide, by decide, ⟨?_, fun _ => by decide⟩, .inr ?_⟩, hvalue⟩, ?_⟩
  · rw [hcast, Nat.pow_zero, Nat.cast_one, mul_one]
    norm_num
  · norm_num [coeffBound]
  · rw [hvalue, Nat.pow_zero, Rat.mkRat_one, hcast]

/-- A quotient that is not there is above the range. -/
theorem coeffBound_le_of_div_eq_none {a b : Decimal} (ha : .zero ≤ a) (hb : .zero < b)
    (h : a.div b = none) : (coeffBound : Rat) - 1 / 2 ≤ a.toRat / b.toRat := by
  have hb' : 0 < b.toRat := lt_iff_toRat.1 hb
  have hlarge : ¬ Fits (a.toRat / b.toRat) := by
    rw [← div_isSome_iff hb'.ne', h]
    exact Bool.false_ne_true
  rw [Fits, abs_of_nonneg (div_nonneg (le_iff_toRat.1 ha) hb'.le)] at hlarge
  exact le_of_not_gt hlarge

end Decimal

variable {old new : Decimal}

/-- An edit of which the quotient is too large is significant, unless the threshold is the largest
decimal. -/
theorem Significance.isSignificant_of_div_eq_none {threshold : Significance} (hold : .zero < old)
    (hnew : .zero ≤ new) (h : new.div old = none) (ht : threshold.minChange < .largest) :
    threshold.isSignificant old new = true := by
  have hold' : 0 < old.toRat := Decimal.lt_iff_toRat.1 hold
  have hnew' : 0 ≤ new.toRat := Decimal.le_iff_toRat.1 hnew
  have hlarge := Decimal.coeffBound_le_of_div_eq_none hnew hold h
  rw [isSignificant, if_neg (Decimal.not_le.2 hold)]
  cases hchange : relativeChange old new with
  | none => rfl
  | some change =>
      obtain ⟨d, hd, hdiv⟩ := Option.bind_eq_some_iff.1 hchange
      have hsub := Decimal.rounds_sub hd
      have hle : old.toRat ≤ new.toRat := by
        rw [le_div_iff₀ hold'] at hlarge
        have hone : (1 : Rat) ≤ (Decimal.coeffBound : Rat) - 1 / 2 := by
          norm_num [Decimal.coeffBound]
        nlinarith
      -- the new quantity itself is as near to the difference as the old one is large
      have hnear : |d.toRat - (new.toRat - old.toRat)| ≤ |new.toRat - (new.toRat - old.toRat)| := by
        refine hsub.abs_sub_le_abs_sub ?_
        rw [abs_of_nonneg (by linarith), abs_of_nonneg hnew']
        linarith
      rw [sub_sub_cancel, abs_of_pos hold'] at hnear
      have hd : new.toRat - 2 * old.toRat ≤ d.toRat := by
        have := (abs_le.1 hnear).1
        linarith
      have hratio : (Decimal.coeffBound : Rat) - 5 / 2 ≤ d.abs.toRat / old.toRat := by
        rw [Decimal.toRat_abs, le_div_iff₀ hold']
        rw [le_div_iff₀ hold'] at hlarge
        have := le_abs_self d.toRat
        linarith
      obtain ⟨w, hw, hvalue⟩ := Decimal.exists_rounds_below
      have hwc := Decimal.le_iff_toRat.1 (hw.le (Decimal.rounds_div hold'.ne' hdiv) hratio)
      rw [hvalue] at hwc
      exact decide_eq_true (Decimal.le_iff_toRat.2
        ((Decimal.toRat_le_of_lt_largest ht).trans hwc))

/-- A quotient that is too large counts as the upper bound. -/
theorem Policy.sample_of_div_eq_none {policy : Policy} (hpolicy : policy.Valid)
    (hold : .zero < old) (hnew : .zero ≤ new) (h : new.div old = none) :
    policy.sample old new = some policy.maxFactor.roundFactor := by
  refine Learning.sample_of_changeFactor_eq_largest hpolicy ?_
  rw [changeFactor, if_neg (Decimal.not_le.2 hold), h]
  exact if_neg (Decimal.not_lt.2 hnew)

/-! ### Corrections -/

/-- A correction is in order if it names an item and no quantity is negative. -/
theorem Correction.fault?_eq_none_iff {r : Correction} : r.fault? = none ↔
    Text.allBlank r.item = false ∧ .zero ≤ r.oldQty ∧ .zero ≤ r.newQty := by
  rw [← Decimal.not_lt, ← Decimal.not_lt, ← Bool.not_eq_true]
  unfold fault?
  split_ifs with hblank hold hnew <;> simp [*]

theorem Correction.wrong_of_fault {r : Correction} {fault : InputError}
    (h : r.fault? = some fault) :
    Text.allBlank r.item = true ∨ r.oldQty < .zero ∨ r.newQty < .zero := by
  unfold fault? at h
  split_ifs at h with hblank hold hnew
  · exact .inl hblank
  · exact .inr (.inl hold)
  · exact .inr (.inr hnew)

namespace Service

open World

variable {config : Config} {s : Stores}

/-- With room, learning from a correction has a lesson. -/
theorem learn_roomy (tenant : TenantId) (r : Correction) (now : Timestamp)
    (hplaced : s.patterns.Placed) (hpolicy : config.tuning.Valid) (hroom : config.tuning.Roomy)
    (hwithin : ∀ key p, s.patterns.get tenant key = some p →
      p.Within config.tuning.minFactor.roundFactor config.tuning.maxFactor.roundFactor) :
    ∃ lesson s', Yields (learn config tenant r now).run s (.ok lesson) s' := by
  by_cases hkind : r.kind = .custom
  · rw [learn, if_pos hkind]
    exact ⟨_, _, yields_pure _⟩
  rw [learn, if_neg hkind]
  have hbound : Yields (Action.attempt (World.ask .quotes fun s =>
      .ok (s.quotes.get tenant r.quote))).run s (.ok (.ok (s.quotes.get tenant r.quote))) s :=
    Action.yields_attempt (yields_ask _ _)
  cases hrule : s.quotes.get tenant r.quote with
  | none =>
      rw [hrule] at hbound
      exact ⟨_, _, hbound.bind (yields_pure _)⟩
  | some ruleKey =>
      rw [hrule] at hbound
      cases hmake : PatternKey.make ruleKey r.item with
      | error e =>
          refine ⟨.failed e.message, s, hbound.bind ?_⟩
          simp only [learnUnder, hmake]
          exact yields_pure _
      | ok key =>
          obtain ⟨sample, hsample⟩ :
              ∃ sample, config.tuning.clamp (changeFactor r.oldQty r.newQty) = some sample :=
            ⟨_, hpolicy.clamp_eq _⟩
          obtain ⟨next, hnext⟩ := Sampling.exists_observe
            (q := ⟨tenant, key, sample, config.tuning, now⟩) hroom hpolicy hsample (hwithin key)
          have hrecord := Learning.record_calm_of_observe_eq_some hplaced
            hpolicy.maxAttempts_ne_zero hsample hnext
          refine ⟨.updated next.factor next.samples (config.tuning.confidence next.samples).tier,
            { s with patterns := s.patterns.put next }, hbound.bind ?_⟩
          simp only [learnUnder, hmake]
          exact (Action.yields_attempt hrecord).bind (yields_pure _)

/-- With room, a correction that is in order is logged or ignored, as it is significant or not. -/
theorem correct_roomy (tenant : TenantId) {r : Correction} (id : EntryId) (now : Timestamp)
    (hplaced : s.patterns.Placed) (hpolicy : config.tuning.Valid) (hroom : config.tuning.Roomy)
    (hwithin : ∀ key p, s.patterns.get tenant key = some p →
      p.Within config.tuning.minFactor.roundFactor config.tuning.maxFactor.roundFactor)
    (hfault : r.fault? = none) :
    if config.significance.isSignificant r.oldQty r.newQty then
      ∃ lesson s', Yields (correct config tenant r id now).run s (.ok (.logged id lesson)) s'
    else Yields (correct config tenant r id now).run s (.ok .ignored) s := by
  rw [correct, hfault]
  split
  · next hsignificant =>
      have hlog : Yields (Action.ofStore (World.change .log fun s =>
          ({ s with log := s.log.append (logEntry tenant r id now) }, ()))).run s (.ok ())
          { s with log := s.log.append (logEntry tenant r id now) } :=
        Action.yields_ofStore (yields_change _ _)
      obtain ⟨lesson, s', hlearn⟩ :=
        learn_roomy (s := { s with log := s.log.append (logEntry tenant r id now) }) tenant r now
          hplaced hpolicy hroom hwithin
      exact ⟨lesson, s', (yields_pure ()).bind (hlog.bind (hlearn.bind (yields_pure _)))⟩
  · exact (yields_pure ()).bind (yields_pure _)

/-! ### Runs -/

/-- The last sample in the window is that of the last correction learned. -/
theorem getLast?_recent_of_updated (hpolicy : config.tuning.Valid) (ops : List Operation)
    {tenant : TenantId} {r : Correction} {id : EntryId} {now : Timestamp} {entry : EntryId}
    {factor : Decimal} {samples : Nat} {tier : Tier}
    (h : (see config (run config ops) (.correct tenant r id now)).answer =
      .ok (.outcome (.logged entry (.updated factor samples tier)))) :
    ∃ key p, key.item = r.item ∧
      (run config (ops ++ [.correct tenant r id now])).stores.patterns.get tenant key = some p ∧
      p.recent.getLast? = config.tuning.sample r.oldQty r.newQty := by
  obtain ⟨key, p, hrule, hitem, hp, -, -⟩ := exists_pattern_of_updated hpolicy ops h
  refine ⟨key, p, hitem, hp, ?_⟩
  have hremembers := remembers_run hpolicy tenant key (ops ++ [.correct tenant r id now])
  rw [hp, history_append_singleton, edits_append_singleton] at hremembers
  have hedits (es : List Edit) : Event.edits tenant key es
      (see config (run config ops) (.correct tenant r id now)) = es ++ [(r.oldQty, r.newQty)] := by
    unfold Event.edits
    rw [h]
    exact if_pos ⟨rfl, hitem.symm, hrule⟩
  rw [hedits] at hremembers
  obtain ⟨-, learned, hsamples, hlearned⟩ := hremembers
  rw [List.map_append, eq_comm, List.map_eq_append_iff] at hsamples
  obtain ⟨before, last, rfl, -, hlast⟩ := hsamples
  obtain ⟨sample, rfl, hsample⟩ := List.map_eq_singleton_iff.1 hlast
  rw [hlearned.recent, Pattern.getLast?_lastOf hpolicy.windowSize_ne_zero, hsample]

/-- The answer to a correction after a run, where there is room: it is refused, or else logged or
ignored, as it is significant or not. -/
theorem see_correct_roomy (hpolicy : config.tuning.Valid) (hroom : config.tuning.Roomy)
    (ops : List Operation) (tenant : TenantId) (r : Correction) (id : EntryId) (now : Timestamp) :
    let answer := (see config (run config ops) (.correct tenant r id now)).answer
    (∀ fault, r.fault? = some fault → answer = .error (.invalidInput fault)) ∧
    (r.fault? = none → if config.significance.isSignificant r.oldQty r.newQty then
        ∃ lesson, answer = .ok (.outcome (.logged id lesson))
      else answer = .ok (.outcome .ignored)) := by
  intro answer
  obtain ⟨s, hs, hplaced⟩ := exists_run_eq_of hpolicy.maxAttempts_ne_zero ops
  have hwithin (key : PatternKey) (p : Pattern) (hp : s.patterns.get tenant key = some p) :
      p.Within config.tuning.minFactor.roundFactor config.tuning.maxFactor.roundFactor := by
    have hremembers := remembers_run hpolicy tenant key ops
    rw [hs] at hremembers
    exact Learning.within_rounded_of_remembers hpolicy (hp ▸ hremembers)
  have hanswer {result : Except ServiceError CorrectionOutcome} {s' : Stores}
      (h : Yields (correct config tenant r id now).run s result s') :
      answer = result.map .outcome := by
    show (see config (run config ops) _).answer = _
    rw [hs]
    exact congrArg Prod.fst (Operation.yields_map Answer.outcome h)
  constructor
  · intro fault hfault
    have hrefused : Yields (correct config tenant r id now).run s
        (.error (.invalidInput fault)) s := by
      rw [correct, hfault]
      exact (yields_throw _).bind_error
    exact hanswer hrefused
  · intro hfault
    have hcorrect := correct_roomy tenant id now hplaced hpolicy hroom hwithin hfault
    split at hcorrect
    · next hsignificant =>
        obtain ⟨lesson, s', hlogged⟩ := hcorrect
        rw [if_pos hsignificant]
        exact ⟨lesson, hanswer hlogged⟩
    · next hsmall =>
        rw [if_neg hsmall]
        exact hanswer hcorrect

/-- **What becomes of a correction after a run**, whatever its quantities are.  Let the
configuration be valid and the upper bound of factors be below half the range.  A correction is
refused if its item is blank or a quantity is negative; otherwise it is logged or ignored, and
nothing is ever too large.  If the quotient of the quantities is, the correction counts as the upper
bound, and it is logged whenever the threshold is below the largest decimal. -/
theorem corrections_run (config : Config) (hconfig : config.fault? = none)
    (hmax : config.tuning.maxFactor.toRat < 2 ^ 95) (ops : List Operation) (tenant : TenantId)
    (r : Correction) (id : EntryId) (now : Timestamp) :
    let answer := (see config (run config ops) (.correct tenant r id now)).answer
    (∀ fault, r.fault? = some fault → answer = .error (.invalidInput fault) ∧
      (Text.allBlank r.item = true ∨ r.oldQty < .zero ∨ r.newQty < .zero)) ∧
    (r.fault? = none → answer = .ok (.outcome .ignored) ∨
      ∃ lesson, answer = .ok (.outcome (.logged id lesson))) ∧
    (r.fault? = none → .zero < r.oldQty → r.newQty.div r.oldQty = none →
      (config.significance.minChange < .largest →
        ∃ lesson, answer = .ok (.outcome (.logged id lesson))) ∧
      config.tuning.sample r.oldQty r.newQty = some config.tuning.maxFactor.roundFactor ∧
      ∀ entry factor samples tier,
        answer = .ok (.outcome (.logged entry (.updated factor samples tier))) →
        ∃ key p, key.item = r.item ∧
          (run config (ops ++ [.correct tenant r id now])).stores.patterns.get tenant key =
            some p ∧
          p.recent.getLast? = some config.tuning.maxFactor.roundFactor) := by
  intro answer
  have hpolicy := Config.valid_tuning hconfig
  obtain ⟨hrefused, hinOrder⟩ := see_correct_roomy hpolicy hmax ops tenant r id now
  refine ⟨fun fault hfault => ⟨hrefused fault hfault, Correction.wrong_of_fault hfault⟩, ?_, ?_⟩
  · intro hfault
    have hanswer := hinOrder hfault
    split at hanswer
    · exact .inr hanswer
    · exact .inl hanswer
  · intro hfault hold hdiv
    have hnew := (Correction.fault?_eq_none_iff.1 hfault).2.2
    have hsample := Policy.sample_of_div_eq_none hpolicy hold hnew hdiv
    refine ⟨fun ht => ?_, hsample, fun entry factor samples tier hupdated => ?_⟩
    · have hanswer := hinOrder hfault
      rw [if_pos (Significance.isSignificant_of_div_eq_none hold hnew hdiv ht)] at hanswer
      exact hanswer
    · rw [← hsample]
      exact getLast?_recent_of_updated hpolicy ops hupdated

/-- Two hundredths become the largest quantity that there is. -/
def utmost : Correction := .ofQuantities "q1" .material "tile" (.hundredths 2) .largest

/-- It is logged, and counts as 1.200. -/
theorem corrections_run_utmost :
    Config.standard.fault? = none ∧ Config.standard.tuning.maxFactor.toRat < 2 ^ 95 ∧
      utmost.fault? = none ∧ .zero < utmost.oldQty ∧ utmost.newQty.div utmost.oldQty = none ∧
      Config.standard.significance.minChange < .largest ∧
      (∃ lesson, (see .standard (run .standard firstQuote)
        (.correct "acme" utmost default .epoch)).answer = .ok (.outcome (.logged default lesson))) ∧
      Config.standard.tuning.sample utmost.oldQty utmost.newQty =
        some (.ofBits 1200 3 (by decide)) := by
  have hconfig : Config.standard.fault? = none := by decide
  have hmax : Config.standard.tuning.maxFactor.toRat < 2 ^ 95 := by decide +kernel
  have hfault : utmost.fault? = none := by decide +kernel
  have hold : Decimal.zero < utmost.oldQty := by decide
  have hdiv : utmost.newQty.div utmost.oldQty = none := by decide +kernel
  have ht : Config.standard.significance.minChange < .largest := by decide
  obtain ⟨hlogged, hsample, -⟩ :=
    (corrections_run .standard hconfig hmax firstQuote "acme" utmost default .epoch).2.2 hfault hold
      hdiv
  exact ⟨hconfig, hmax, hfault, hold, hdiv, ht, hlogged ht, hsample.trans (by decide +kernel)⟩

/-- A configuration with the largest threshold. -/
def largestThreshold : Config := { Config.standard with significance := ⟨.largest⟩ }

/-- An edit of which the quotient is just too large. -/
def justTooLarge : Correction :=
  .ofQuantities "q1" .labor "tiling" (.tenths 7) (.whole 55459713759985036315480765235)

/-- The configuration is valid, and the quotient is too large for a decimal.  But the change
relative to the old quantity is a decimal below the largest one, and so the edit is ignored. -/
theorem largestThreshold_ignores :
    largestThreshold.fault? = none ∧ largestThreshold.tuning.maxFactor.toRat < 2 ^ 95 ∧
      justTooLarge.fault? = none ∧ .zero < justTooLarge.oldQty ∧
      justTooLarge.newQty.div justTooLarge.oldQty = none ∧
      (see largestThreshold (run largestThreshold [])
        (.correct "acme" justTooLarge default .epoch)).answer = .ok (.outcome .ignored) := by
  have hfault : justTooLarge.fault? = none := by decide +kernel
  have hignored : largestThreshold.significance.isSignificant justTooLarge.oldQty
      justTooLarge.newQty = false := by decide +kernel
  have hyields : Yields (correct largestThreshold "acme" justTooLarge default .epoch).run .empty
      (.ok .ignored) .empty := by
    rw [correct, hfault, hignored]
    exact (yields_pure ()).bind (yields_pure _)
  exact ⟨by decide, by decide +kernel, hfault, by decide, by decide +kernel,
    congrArg Prod.fst (Operation.yields_map Answer.outcome hyields)⟩

end Service
end Estimating
