/-
A window of which more than half is one sample.

The median is then that sample, as a value: if the number of samples is even, it is the mean of the
sample with itself, which is worked out by a sum and a quotient.  These are exact as long as twice
the sample is a decimal without rounding; beyond that the mean of a number with itself may be
another number.

* `mean_self` — the mean of a number with itself;
* `getElem?_sorted_of_count` — a value that is frequent enough stands in the middle;
* `median_of_majority` — **the median of values of which more than half are the same**;
* `Policy.round_clamp_of_sample` — a sample stays what it is, clamped and rounded once more;
* `Policy.factor_of_majority`, `Pattern.Learned.factor_eq` — **the factor of a window of which more
  than half is one sample**.
-/
import Estimating.Proofs.Learning.Window

set_option autoImplicit false

namespace Estimating

/-! ### Numbers with one value -/

namespace Decimal

variable {x y : Decimal}

/-- Numbers with one value are rounded alike. -/
theorem roundTo_congr (h : x.units = y.units) {n : Nat} (hn : n ≤ 28) :
    x.roundTo n = y.roundTo n :=
  (tidy_roundTo x hn).eq (tidy_roundTo y hn) (by rw [units_roundTo x hn, units_roundTo y hn, h])

theorem units_clamp_congr (h : x.units = y.units) (lo hi : Decimal) :
    (x.clamp lo hi).units = (y.clamp lo hi).units := by
  unfold clamp
  simp only [lt_iff_units, h]
  split
  · rfl
  · split
    · rfl
    · exact h

/-- What fits as it is loses no digit. -/
theorem fit_of_lt {c : Int} {s : Nat} (hc : c.natAbs < 2 ^ 96) (hs : s ≤ 28) :
    fit c s = ofParts? c s := by
  have hexcess : excessDigits c.natAbs = 0 := by
    unfold excessDigits
    rw [if_pos hc]
  have hdigits : max (s - maxScale) (excessDigits c.natAbs) = 0 := by
    have : maxScale = 28 := rfl
    omega
  have hsome := ofParts?_isSome.2 ⟨hc, hs⟩
  simp only [fit, hdigits, shorten?, dropDigits_zero, Nat.zero_le, if_true, Nat.sub_zero]
  obtain ⟨d, hd⟩ := Option.isSome_iff_exists.1 hsome
  rw [hd]
  rfl

theorem units_eq_of_parts (hcoeff : x.coeff = y.coeff) (hscale : x.scale = y.scale) :
    x.units = y.units := by
  rw [units, units, hcoeff, hscale]

theorem units_of_isZero (h : x.isZero = true) : x.units = 0 := by
  have hsize : x.size = 0 := eq_of_beq h
  have hcoeff : x.coeff = 0 := Int.natAbs_eq_zero.1 (x.natAbs_coeff.trans hsize)
  rw [units, hcoeff, Int.zero_mul]

/-- Twice a number, where that loses no digit. -/
theorem add_self (hzero : x.isZero = false) (h : x.size < 2 ^ 95) :
    ∃ d, x.add x = some d ∧ d.coeff = 2 * x.coeff ∧ d.scale = x.scale := by
  have hsum : x.coeff * 10 ^ (x.scale - x.scale) + x.coeff * 10 ^ (x.scale - x.scale) =
      2 * x.coeff := by
    rw [Nat.sub_self, Int.pow_zero, Int.mul_one, Int.two_mul]
  have habs : (2 * x.coeff).natAbs < 2 ^ 96 := by
    rw [Int.natAbs_mul, natAbs_coeff]
    show 2 * x.size < 2 ^ 96
    omega
  rw [add, hzero, if_neg Bool.false_ne_true, if_neg Bool.false_ne_true]
  simp only [Nat.max_self, hsum, fit_of_lt habs x.scale_le]
  obtain ⟨d, hd⟩ := Option.isSome_iff_exists.1 (ofParts?_isSome.2 ⟨habs, x.scale_le⟩)
  exact ⟨d, hd, ofParts?_eq_some hd⟩

/-- Half of an even number comes out whole. -/
theorem div_two {c : Int} (hcoeff : x.coeff = 2 * c) (hzero : x.isZero = false) :
    ∃ d, x.div two = some d ∧ d.coeff = c ∧ d.scale = x.scale := by
  have hsize : x.size = 2 * c.natAbs := by
    rw [← natAbs_coeff, hcoeff, Int.natAbs_mul]
    rfl
  have hne : c.natAbs ≠ 0 := by
    rintro h
    rw [isZero, hsize, h] at hzero
    cases hzero
  have hquot : x.size / two.size = c.natAbs := by
    rw [hsize]
    exact Nat.mul_div_cancel_left _ (by decide)
  have hrem : x.size % two.size = 0 := by
    rw [hsize]
    exact Nat.mul_mod_right 2 _
  have hlong : longDivision two.size c.natAbs 0 ((x.scale : Int) - two.scale) =
      some (c.natAbs, x.scale) := by
    have hscale : (x.scale : Int) - two.scale = x.scale := Int.sub_zero _
    unfold longDivision
    rw [if_pos rfl, hscale, if_pos (Int.natCast_nonneg _), Int.toNat_natCast]
  have hsign : x.coeff.sign * two.coeff.sign * c.natAbs = c := by
    rw [hcoeff, Int.sign_mul]
    show 1 * c.sign * 1 * c.natAbs = c
    rw [Int.one_mul, Int.mul_one, Int.sign_mul_natAbs]
  have hbound : c.natAbs < 2 ^ 96 := by
    have := x.size_lt
    omega
  obtain ⟨d, hd⟩ := Option.isSome_iff_exists.1 (ofParts?_isSome.2 ⟨hbound, x.scale_le⟩)
  refine ⟨d, ?_, ofParts?_eq_some hd⟩
  have htwo : two.isZero = false := rfl
  rw [div, htwo, hzero, if_neg Bool.false_ne_true, if_neg Bool.false_ne_true, hquot, hrem]
  simp only [hlong, if_true, hsign]
  exact hd

end Decimal

/-- The mean of a number with itself. -/
theorem mean_self {x : Decimal} (h : x.size < 2 ^ 95) :
    ∃ m, mean x x = some m ∧ m.units = x.units := by
  unfold mean
  cases hzero : x.isZero with
  | true =>
      have hadd : x.add x = some x := by rw [Decimal.add, hzero, if_pos rfl]
      have hdiv : x.div .two = some .zero := by
        rw [Decimal.div, hzero]
        rfl
      exact ⟨.zero, by rw [hadd]; exact hdiv, (Decimal.units_of_isZero hzero).symm⟩
  | false =>
      obtain ⟨d, hadd, hcoeff, hscale⟩ := Decimal.add_self hzero h
      have hdzero : d.isZero = false := by
        have hne : x.size ≠ 0 := by simpa [Decimal.isZero] using hzero
        have hsize : d.size = 2 * x.size := by
          rw [← Decimal.natAbs_coeff, hcoeff, Int.natAbs_mul, Decimal.natAbs_coeff]
          rfl
        rw [Decimal.isZero, hsize]
        exact beq_eq_false_iff_ne.2 (by omega)
      obtain ⟨m, hdiv, hm, hmscale⟩ := Decimal.div_two hcoeff hdzero
      exact ⟨m, by rw [hadd]; exact hdiv, Decimal.units_eq_of_parts hm (hmscale.trans hscale)⟩

/-- The last digit of a larger number is lost. -/
example : mean (.ofBits 50000000000000000000000000001 3 (by decide))
    (.ofBits 50000000000000000000000000001 3 (by decide)) =
      some (.ofBits 5000000000000000000000000000 2 (by decide)) := by decide +kernel

/-! ### The middle of sorted values -/

theorem pairwise_sorted (values : List Decimal) :
    (sorted values).Pairwise fun a b => a.units ≤ b.units := by
  have hpairs : (sorted values).Pairwise fun a b => decide (a ≤ b) = true := by
    refine List.pairwise_mergeSort (fun a b c hab hbc => ?_) (fun a b => ?_) values
    · simp only [decide_eq_true_eq, Decimal.le_iff_units] at hab hbc ⊢
      exact Int.le_trans hab hbc
    · simp only [Bool.or_eq_true, decide_eq_true_eq, Decimal.le_iff_units]
      exact Int.le_total a.units b.units
  exact hpairs.imp fun h => Decimal.le_iff_units.1 (of_decide_eq_true h)

/-- A place with fewer other values on either side is taken by the value that is left. -/
theorem getElem?_sorted_of_count {values : List Decimal} {x : Decimal}
    (hvalue : ∀ y ∈ values, y.units = x.units → y = x) {i : Nat}
    (hlow : values.length ≤ i + values.count x) (hhigh : i < values.count x) :
    (sorted values)[i]? = some x := by
  have hperm : (sorted values).Perm values := List.mergeSort_perm _ _
  have hlength := hperm.length_eq
  have hsplit (n : Nat) : values.count x =
      ((sorted values).take n).count x + ((sorted values).drop n).count x := by
    rw [← List.count_append, List.take_append_drop, hperm.count_eq]
  have hi : i < (sorted values).length := by
    have := values.count_le_length (a := x)
    omega
  have horder := List.pairwise_iff_getElem.1 (pairwise_sorted values)
  rw [List.getElem?_eq_getElem hi, Option.some_inj]
  refine hvalue _ (hperm.mem_iff.1 (List.getElem_mem hi)) ?_
  rcases Int.lt_trichotomy (sorted values)[i].units x.units with hlt | heq | hgt
  · -- then the value is nowhere up to this place
    have hnone : ((sorted values).take (i + 1)).count x = 0 := by
      refine List.count_eq_zero_of_not_mem fun hx => ?_
      obtain ⟨j, hj, hx⟩ := List.mem_take_iff_getElem.1 hx
      rcases Nat.lt_or_eq_of_le (show j ≤ i by omega) with hji | rfl
      · have := horder j i (by omega) hi hji
        rw [hx] at this
        omega
      · rw [hx] at hlt
        omega
    have hrest := ((sorted values).drop (i + 1)).count_le_length (a := x)
    rw [List.length_drop] at hrest
    have := hsplit (i + 1)
    omega
  · exact heq
  · -- then it is nowhere from this place on
    have hnone : ((sorted values).drop i).count x = 0 := by
      refine List.count_eq_zero_of_not_mem fun hx => ?_
      obtain ⟨j, hj, hx⟩ := List.mem_drop_iff_getElem.1 hx
      rcases Nat.eq_zero_or_pos j with rfl | hpos
      · rw [← hx] at hgt
        exact absurd hgt (Int.lt_irrefl _)
      · have := horder i (i + j) hi (by omega) (by omega)
        rw [hx] at this
        omega
    have hrest := ((sorted values).take i).count_le_length (a := x)
    rw [List.length_take] at hrest
    have := hsplit i
    omega

/-- **The median of values of which more than half are the same.** -/
theorem median_of_majority {values : List Decimal} {x : Decimal} (hsize : x.size < 2 ^ 95)
    (hvalue : ∀ y ∈ values, y.units = x.units → y = x)
    (hmajority : values.length < 2 * values.count x) :
    ∃ m, median values = some m ∧ m.units = x.units := by
  have hperm : (sorted values).Perm values := List.mergeSort_perm _ _
  have hcount := values.count_le_length (a := x)
  unfold median
  simp only [hperm.length_eq]
  split
  · exact ⟨x, getElem?_sorted_of_count hvalue (by omega) (by omega), rfl⟩
  · rw [getElem?_sorted_of_count hvalue (by omega) (by omega),
      getElem?_sorted_of_count hvalue (by omega) (by omega)]
    exact mean_self hsize

/-! ### Samples -/

/-- A sample stays what it is, clamped and rounded once more. -/
theorem Policy.round_clamp_of_sample {policy : Policy} (hpolicy : policy.Valid)
    {old new sample m : Decimal} (hsample : policy.sample old new = some sample)
    (hm : m.units = sample.units) : (policy.clamp m).map .roundFactor = some sample := by
  have hscale : Decimal.factorScale ≤ 28 := by decide
  rw [Policy.sample, hpolicy.clamp_eq, Option.map_some, Option.some.injEq] at hsample
  have hlo := Decimal.le_clamp (x := changeFactor old new) hpolicy.minFactor_le_maxFactor
  have hhi := Decimal.clamp_le (x := changeFactor old new) hpolicy.minFactor_le_maxFactor
  rw [hpolicy.clamp_eq, Option.map_some, Option.some.injEq]
  calc (m.clamp policy.minFactor policy.maxFactor).roundFactor
    _ = (sample.clamp policy.minFactor policy.maxFactor).roundFactor :=
        Decimal.roundTo_congr (Decimal.units_clamp_congr hm _ _) hscale
    _ = sample := by rw [← hsample, Decimal.roundFactor_clamp_roundFactor hlo hhi]

/-- Samples of one value are one sample. -/
theorem Policy.sample_eq_of_units {policy : Policy} {old new old' new' x y : Decimal}
    (hx : policy.sample old new = some x) (hy : policy.sample old' new' = some y)
    (h : x.units = y.units) : x = y := by
  have htidy {old new x : Decimal} (hx : policy.sample old new = some x) :
      Decimal.Tidy Decimal.factorScale x := by
    obtain ⟨factor, -, rfl⟩ := Option.map_eq_some_iff.1 hx
    exact Decimal.tidy_roundTo factor (by decide)
  exact (htidy hx).eq (htidy hy) h

/-- **The factor of a window of which more than half is one sample** is that sample. -/
theorem Policy.factor_of_majority {policy : Policy} (hpolicy : policy.Valid)
    {old new sample : Decimal} (hsample : policy.sample old new = some sample)
    (hsize : sample.size < 2 ^ 95) {window : List Decimal}
    (hwindow : ∀ x ∈ window, ∃ old new, policy.sample old new = some x)
    (hmajority : window.length < 2 * window.count sample) :
    (median window >>= policy.clamp).map .roundFactor = some sample := by
  have hvalue : ∀ x ∈ window, x.units = sample.units → x = sample := by
    intro x hx hunits
    obtain ⟨old', new', hx⟩ := hwindow x hx
    exact Policy.sample_eq_of_units hx hsample hunits
  obtain ⟨m, hmedian, hunits⟩ := median_of_majority hsize hvalue hmajority
  rw [hmedian]
  exact Policy.round_clamp_of_sample hpolicy hsample hunits

/-- What a sample makes of a pattern if the window is then such a one. -/
theorem Sampling.observe_of_majority {q : Sampling} (hpolicy : q.policy.Valid) {p : Pattern}
    {old new sample : Decimal} (hsample : q.policy.sample old new = some sample)
    (hsize : sample.size < 2 ^ 95) {window : List Decimal}
    (hlast : window = Pattern.lastOf q.policy.windowSize (p.recent ++ [q.sample.roundFactor]))
    (hwindow : ∀ x ∈ window, ∃ old new, q.policy.sample old new = some x)
    (hmajority : window.length < 2 * window.count sample) :
    q.observe (some p) = some { p with
      factor := sample, recent := window, samples := min (p.samples + 1) q.policy.maxSamples,
      updatedAt := q.now } := by
  have hne := Pattern.lastOf_ne_nil hpolicy.windowSize_ne_zero p.recent q.sample.roundFactor
  have hfactor := q.policy.factor_of_majority hpolicy hsample hsize hwindow hmajority
  rw [hlast, ← Pattern.factorOf_of_ne_nil q.policy p.factor hne] at hfactor
  rw [observe, Pattern.next, Pattern.extend, hfactor, hlast]
  rfl

/-- So is the factor of a pattern with such a window. -/
theorem Pattern.Learned.factor_eq {policy : Policy} (hpolicy : policy.Valid)
    {samples : List Decimal} {p : Pattern} (h : p.Learned policy samples)
    {old new sample : Decimal} (hsample : policy.sample old new = some sample)
    (hsize : sample.size < 2 ^ 95)
    (hsamples : ∀ x ∈ samples, ∃ old new, policy.sample old new = some x)
    (hmajority : p.recent.length < 2 * p.recent.count sample) : p.factor = sample := by
  have hwindow : ∀ x ∈ p.recent, ∃ old new, policy.sample old new = some x := by
    intro x hx
    rw [h.recent] at hx
    exact hsamples x (List.mem_of_mem_drop hx)
  have hfactor := policy.factor_of_majority hpolicy hsample hsize hwindow hmajority
  exact Option.some.inj (h.factor.symm.trans hfactor)

end Estimating
