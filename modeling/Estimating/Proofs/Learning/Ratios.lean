/-
Ratios of quantities, in spite of rounding.

Whether a correction is logged, and what it counts as, is decided on a quotient that has been
rounded already.  For quantities, thresholds and bounds as they are written in practice this makes
no difference: two different fractions with denominators of moderate size lie further apart than a
quotient is moved, and a fraction of few digits is not passed by rounding.

* `Decimal.Short` — a number of few digits;
* `quotient_gap` — different fractions are apart, and `Decimal.Rounds.le_iff_quotient` — **a rounded
  quotient is on the same side of a fraction of few digits**;
* `Decimal.Rounds.nearest_eq` — rounding it again is rounding the exact quotient;
* `Decimal.nearest_mono`, `Decimal.nearest_clamp` — rounding and clamping;
* `Learning.ratios_exact` — **thresholds and samples are those of exact ratios**.
-/
import Estimating.Proofs.Decimal.Exact
import Estimating.Proofs.Learning.Window
import Estimating.Correction.Basic

set_option autoImplicit false

namespace Estimating

/-! ### Numbers of few digits -/

namespace Decimal

/-- A number that is not negative, has at most `places` fraction digits and is at most `bound`. -/
structure Short (places bound : Nat) (x : Decimal) : Prop where
  nonneg : .zero ≤ x
  hasPlaces : HasPlaces places x.toRat
  le : x.toRat ≤ bound

/-- Such a number is a whole number of units of its last place. -/
theorem Short.exists_eq_div {places bound : Nat} {x : Decimal} (h : Short places bound x) :
    ∃ n : Nat, x.toRat = n / (10 ^ places : Nat) ∧ n ≤ bound * 10 ^ places := by
  obtain ⟨c, hc⟩ := h.hasPlaces
  have hpos := cast_pow_pos places
  have hvalue := hc.trans (Rat.mkRat_eq_div c _)
  have hnonneg := le_iff_toRat.1 h.nonneg
  rw [toRat_zero, hvalue, le_div_iff₀ hpos, zero_mul] at hnonneg
  obtain ⟨n, rfl⟩ := Int.eq_ofNat_of_zero_le (Int.cast_nonneg_iff.1 hnonneg)
  refine ⟨n, hvalue, ?_⟩
  have hle := h.le
  rw [hvalue, div_le_iff₀ hpos] at hle
  exact_mod_cast hle

end Decimal

/-! ### Fractions are apart -/

/-- Different fractions differ by a unit of the product of their denominators. -/
theorem quotient_gap {a o m : Nat} {k : Int} (ho : 0 < o) (hm : 0 < m)
    (h : (a : Rat) / o < (k : Rat) / m) : (a : Rat) / o + 1 / (o * m) ≤ (k : Rat) / m := by
  have ho' : (0 : Rat) < o := Nat.cast_pos.2 ho
  have hm' : (0 : Rat) < m := Nat.cast_pos.2 hm
  rw [div_lt_div_iff₀ ho' hm'] at h
  have hnext : (a * m + 1 : Rat) ≤ k * o := by
    have hlt : (a * m : Int) < k * o := by exact_mod_cast h
    exact_mod_cast hlt
  have hsum : (a : Rat) / o + 1 / (o * m) = (a * m + 1) / (o * m) := by
    field_simp
  rw [hsum, div_le_div_iff₀ (by positivity) hm']
  nlinarith

theorem quotient_le {a o : Nat} (ha : a ≤ 10 ^ 11) (ho : 0 < o) : (a : Rat) / o ≤ 10 ^ 11 := by
  have hone : (1 : Rat) ≤ o := by exact_mod_cast ho
  exact (div_le_self (Nat.cast_nonneg a) hone).trans (by exact_mod_cast ha)

namespace Decimal

/-- **A rounded quotient is on the same side of a fraction of few digits** as the exact one. -/
theorem Rounds.le_iff_quotient {a o m : Nat} {k : Int} {x : Decimal}
    (h : Rounds ((a : Rat) / o) x) (ha : a ≤ 10 ^ 11) (ho : 0 < o) (ho' : o ≤ 10 ^ 11) (hm : 0 < m)
    (hm' : m ≤ 10 ^ 6) (hk : Representable ((k : Rat) / m)) :
    (k : Rat) / m ≤ x.toRat ↔ (k : Rat) / m ≤ (a : Rat) / o := by
  constructor
  · contrapose!
    intro hlt
    have hsize : |(a : Rat) / o| * (10 ^ 17 : Nat) < (coeffBound : Rat) - 1 / 2 := by
      have hbound : (10 : Rat) ^ 11 * (10 ^ 17 : Nat) < (coeffBound : Rat) - 1 / 2 := by
        norm_num [coeffBound]
      rw [abs_of_nonneg (by positivity)]
      exact (mul_le_mul_of_nonneg_right (quotient_le ha ho) (Nat.cast_nonneg _)).trans_lt hbound
    have hnear := (abs_le.1 (h.abs_sub_le (by decide : 17 ≤ 28) hsize)).2
    have hgap := quotient_gap ho hm hlt
    -- half a unit of the seventeenth place is less than the distance
    have hunit : 1 / 2 / (10 ^ 17 : Nat) < 1 / ((o : Rat) * m) := by
      have hden : (o : Rat) * m ≤ 10 ^ 11 * 10 ^ 6 := by exact_mod_cast Nat.mul_le_mul ho' hm'
      rw [div_div, div_lt_div_iff₀ (by positivity) (by positivity)]
      push_cast
      linarith
    linarith
  · intro hle
    obtain ⟨y, hy⟩ := hk.exists_toRat
    have hround := rounds_toRat y
    rw [hy] at hround
    rw [← hy]
    exact le_iff_toRat.1 (hround.le h hle)

/-- The middle between two thousandths is a decimal. -/
theorem representable_middle {k : Int} (hk : k.natAbs ≤ 10 ^ 15) :
    Representable ((k : Rat) / (2000 : Nat)) := by
  refine ⟨k * 5, 4, ?_, by decide, ?_⟩
  · have hbound : 10 ^ 15 * 5 < coeffBound := by decide
    omega
  · rw [Rat.mkRat_eq_div]
    push_cast
    ring

/-- Rounding a quotient again is rounding the exact one. -/
theorem Rounds.nearest_eq {a o : Nat} {x : Decimal} (h : Rounds ((a : Rat) / o) x)
    (ha : a ≤ 10 ^ 11) (ho : 0 < o) (ho' : o ≤ 10 ^ 11) :
    nearest 3 x.toRat = nearest 3 ((a : Rat) / o) := by
  have h0 : (0 : Rat) ≤ (a : Rat) / o := by positivity
  have hx0 : 0 ≤ x.toRat := le_iff_toRat.1 (rounds_zero.le h h0)
  have hquot := quotient_le ha ho
  -- both values are rounded up from the same middles on
  have hmiddle {k : Int} (hk : k.natAbs ≤ 10 ^ 15) :
      (k : Rat) / (2000 : Nat) ≤ x.toRat ↔ (k : Rat) / (2000 : Nat) ≤ (a : Rat) / o :=
    h.le_iff_quotient ha ho ho' (by decide) (by decide) (representable_middle hk)
  have hfloor : ⌊x.toRat * (10 ^ 3 : Nat) + 1 / 2⌋ = ⌊(a : Rat) / o * (10 ^ 3 : Nat) + 1 / 2⌋ := by
    generalize hn : ⌊(a : Rat) / o * (10 ^ 3 : Nat) + 1 / 2⌋ = n
    obtain ⟨hlow, hhigh⟩ := Int.floor_eq_iff.1 hn
    have hn0 : 0 ≤ n := by
      rw [← hn]
      exact Int.floor_nonneg.2 (by positivity)
    have hnle : n ≤ 10 ^ 14 + 1 := by
      have hle : (n : Rat) ≤ 10 ^ 14 + 1 := by
        push_cast at hlow
        linarith
      exact_mod_cast hle
    have hbelow := hmiddle (k := 2 * n - 1) (by omega)
    have habove := hmiddle (k := 2 * n + 1) (by omega)
    push_cast at hlow hhigh hbelow habove ⊢
    refine Int.floor_eq_iff.2 ⟨?_, ?_⟩
    · have := hbelow.2 (by linarith)
      linarith
    · have := mt habove.1 (by linarith)
      linarith
  rw [nearest, nearest, nearestInt_of_nonneg (by positivity), nearestInt_of_nonneg (by positivity),
    hfloor]

/-! ### Rounding and clamping -/

theorem nearestInt_mono {p q : Rat} (h : p ≤ q) : nearestInt p ≤ nearestInt q := by
  unfold nearestInt
  split
  · next hp =>
      rw [if_pos (hp.trans h)]
      exact Int.floor_mono (by linarith)
  · next hp =>
      split
      · next hq =>
          have hlow : ⌈p - 1 / 2⌉ ≤ 0 := Int.ceil_le.2 (by rw [Int.cast_zero]; linarith)
          have hhigh : 0 ≤ ⌊q + 1 / 2⌋ := Int.le_floor.2 (by rw [Int.cast_zero]; linarith)
          exact hlow.trans hhigh
      · exact Int.ceil_mono (by linarith)

theorem nearest_mono (n : Nat) : Monotone (nearest n) := fun p q h => by
  have hpos := cast_pow_pos n
  exact div_le_div_of_nonneg_right
    (Int.cast_le.2 (nearestInt_mono (mul_le_mul_of_nonneg_right h hpos.le))) hpos.le

theorem toRat_clamp {x lo hi : Decimal} (h : lo ≤ hi) :
    (x.clamp lo hi).toRat = max lo.toRat (min hi.toRat x.toRat) := by
  have h' := le_iff_toRat.1 h
  unfold clamp
  split
  · next hlt =>
      have hlt := (lt_iff_toRat.1 hlt).le
      rw [min_eq_right (hlt.trans h'), max_eq_left hlt]
  · next hlo =>
      have hlo := le_iff_toRat.1 (not_lt.1 hlo)
      split
      · next hlt => rw [min_eq_left (lt_iff_toRat.1 hlt).le, max_eq_right h']
      · next hhi => rw [min_eq_right (le_iff_toRat.1 (not_lt.1 hhi)), max_eq_right hlo]

/-- Bounds that are not rounded can be brought in before or after rounding. -/
theorem nearest_clamp {n : Nat} {lo hi : Rat} (hlo : HasPlaces n lo) (hhi : HasPlaces n hi)
    (q : Rat) : nearest n (max lo (min hi q)) = max lo (min hi (nearest n q)) := by
  rw [(nearest_mono n).map_max, (nearest_mono n).map_min, hlo.nearest_eq, hhi.nearest_eq]

@[simp] theorem toRat_abs (x : Decimal) : x.abs.toRat = |x.toRat| := by
  rw [toRat, toRat, coeff_abs, abs_mkRat, Rat.mkRat_eq_div, natAbs_coeff]
  rfl

end Decimal

namespace Learning

open Decimal

variable {old new : Decimal} {policy : Policy}

/-! ### Quantities -/

/-- The quotient of two quantities is there, and is rounded once. -/
theorem exists_div_of_le {x : Decimal} {a o : Nat} (hold : .zero < old)
    (hquot : x.toRat / old.toRat = (a : Rat) / o) (ha : a ≤ 10 ^ 11) (ho : 0 < o) :
    ∃ y, x.div old = some y ∧ Rounds ((a : Rat) / o) y := by
  have hne : old.toRat ≠ 0 := (lt_iff_toRat.1 hold).ne'
  have hfits : Fits (x.toRat / old.toRat) := by
    have hbound : (10 : Rat) ^ 11 < (coeffBound : Rat) - 1 / 2 := by norm_num [coeffBound]
    rw [hquot, Fits, abs_of_nonneg (by positivity)]
    exact (quotient_le ha ho).trans_lt hbound
  obtain ⟨y, hy⟩ := Option.isSome_iff_exists.1 ((div_isSome_iff hne).2 hfits)
  exact ⟨y, hy, hquot ▸ rounds_div hne hy⟩

theorem exists_eq_hundredths (hold : .zero < old) (hold' : Short 2 (10 ^ 9) old) :
    ∃ o : Nat, old.toRat = (o : Rat) / 100 ∧ 0 < o ∧ o ≤ 10 ^ 11 := by
  obtain ⟨o, ho, ho'⟩ := hold'.exists_eq_div
  rw [Nat.cast_pow, Nat.cast_ofNat] at ho
  refine ⟨o, ho.trans (by norm_num), Nat.pos_of_ne_zero ?_, ho'⟩
  rintro rfl
  have hpos := lt_iff_toRat.1 hold
  rw [toRat_zero, ho, Nat.cast_zero, zero_div] at hpos
  exact lt_irrefl _ hpos

/-- A correction is logged if and only if the exact change has reached the threshold. -/
theorem isSignificant_iff {threshold : Significance} (ht : HasPlaces 6 threshold.minChange.toRat)
    (hold : .zero < old) (hold' : Short 2 (10 ^ 9) old) (hnew : Short 2 (10 ^ 9) new) :
    threshold.isSignificant old new = true ↔
      threshold.minChange.toRat * old.toRat ≤ |new.toRat - old.toRat| := by
  have hrep := representable_toRat threshold.minChange
  obtain ⟨k, hk⟩ := ht
  obtain ⟨o, ho, hpos, ho'⟩ := exists_eq_hundredths hold hold'
  obtain ⟨a, ha, ha'⟩ := hnew.exists_eq_div
  rw [Nat.cast_pow, Nat.cast_ofNat] at ha
  rw [Rat.mkRat_eq_div] at hk
  have hsub : new.toRat - old.toRat = mkRat (a - o) (10 ^ 2) := by
    rw [ha, ho, Rat.mkRat_eq_div]
    push_cast
    ring
  have hbound : ((a : Int) - o).natAbs ≤ 10 ^ 11 := by omega
  obtain ⟨d, hd, hdvalue⟩ := exists_sub_eq (a := new) (b := old)
    ⟨_, 2, Nat.lt_of_le_of_lt hbound (by decide), by decide, hsub⟩
  have habs : |new.toRat - old.toRat| = (((a : Int) - o).natAbs : Rat) / 100 := by
    rw [hsub, abs_mkRat]
    norm_num
  have hquot : d.abs.toRat / old.toRat = (((a : Int) - o).natAbs : Rat) / o := by
    rw [toRat_abs, hdvalue, habs, ho]
    field_simp
  obtain ⟨change, hchange, hround⟩ := exists_div_of_le hold hquot hbound hpos
  have hrelative : Significance.relativeChange old new = some change := by
    rw [Significance.relativeChange, hd]
    exact hchange
  have hside := hround.le_iff_quotient hbound hpos ho' (by decide) (le_refl _) (hk ▸ hrep)
  rw [Significance.isSignificant, if_neg (not_le.2 hold), hrelative]
  simp only [decide_eq_true_eq]
  have ho0 : (0 : Rat) < o := Nat.cast_pos.2 hpos
  rw [le_iff_toRat, hk, hside, habs, ho, le_div_iff₀ ho0, mul_div_assoc',
    div_le_div_iff_of_pos_right (by norm_num)]

/-- What a correction counts as is the exact ratio, brought between the bounds and rounded. -/
theorem exists_sample_eq (hpolicy : policy.Valid) (hlo : HasPlaces 3 policy.minFactor.toRat)
    (hhi : HasPlaces 3 policy.maxFactor.toRat) (hold : .zero < old) (hold' : Short 2 (10 ^ 9) old)
    (hnew : Short 2 (10 ^ 9) new) :
    ∃ x, policy.sample old new = some x ∧ x.toRat = nearest 3
      (max policy.minFactor.toRat (min policy.maxFactor.toRat (new.toRat / old.toRat))) := by
  obtain ⟨o, ho, hpos, ho'⟩ := exists_eq_hundredths hold hold'
  obtain ⟨a, ha, ha'⟩ := hnew.exists_eq_div
  rw [Nat.cast_pow, Nat.cast_ofNat] at ha
  have hquot : new.toRat / old.toRat = (a : Rat) / o := by
    rw [ha, ho]
    field_simp
    norm_num
  obtain ⟨y, hy, hround⟩ := exists_div_of_le hold hquot ha' hpos
  have hfactor : changeFactor old new = y := by
    rw [changeFactor, if_neg (not_le.2 hold), hy]
  refine ⟨_, by rw [Policy.sample, hfactor, hpolicy.clamp_eq]; rfl, ?_⟩
  rw [roundFactor, toRat_roundTo _ (by decide), toRat_clamp hpolicy.minFactor_le_maxFactor, hquot]
  show nearest 3 _ = _
  rw [nearest_clamp hlo hhi, nearest_clamp hlo hhi, hround.nearest_eq ha' hpos ho']

/-- **Thresholds and samples are those of exact ratios.**  Let the quantities have at most two
fraction digits and be at most a thousand million, the threshold at most six fraction digits and the
bounds of a valid policy at most three.  Then a correction is logged exactly if the difference is at
least the threshold times the old quantity, and it counts as the exact ratio, brought between the
bounds and rounded to three fraction digits, a half upwards.  So it counts the more, the larger the
new quantity and the smaller the old one is. -/
theorem ratios_exact (policy : Policy) (threshold : Significance) (h : policy.fault? = none)
    (hlo : HasPlaces 3 policy.minFactor.toRat) (hhi : HasPlaces 3 policy.maxFactor.toRat)
    (ht : HasPlaces 6 threshold.minChange.toRat) (old new : Decimal) (hold : .zero < old)
    (hold' : Short 2 (10 ^ 9) old) (hnew : Short 2 (10 ^ 9) new) :
    (threshold.isSignificant old new = true ↔
      threshold.minChange.toRat * old.toRat ≤ |new.toRat - old.toRat|) ∧
    (∃ x, policy.sample old new = some x ∧ x.toRat = nearest 3
      (max policy.minFactor.toRat (min policy.maxFactor.toRat (new.toRat / old.toRat)))) ∧
    ∀ old₁ new₁, .zero < old₁ → Short 2 (10 ^ 9) old₁ → Short 2 (10 ^ 9) new₁ →
      old₁ ≤ old → new ≤ new₁ → ∀ x x₁, policy.sample old new = some x →
      policy.sample old₁ new₁ = some x₁ → x ≤ x₁ := by
  have hpolicy := Policy.fault?_eq_none h
  have hsample := exists_sample_eq hpolicy hlo hhi hold hold' hnew
  refine ⟨isSignificant_iff ht hold hold' hnew, hsample, ?_⟩
  intro old₁ new₁ hold₁ hold₁' hnew₁ hle hle' x x₁ hx hx₁
  obtain ⟨y, hy, hvalue⟩ := hsample
  obtain ⟨y₁, hy₁, hvalue₁⟩ := exists_sample_eq hpolicy hlo hhi hold₁ hold₁' hnew₁
  obtain rfl := Option.some.inj (hy.symm.trans hx)
  obtain rfl := Option.some.inj (hy₁.symm.trans hx₁)
  have hratio : new.toRat / old.toRat ≤ new₁.toRat / old₁.toRat :=
    div_le_div₀ (le_iff_toRat.1 hnew₁.nonneg) (le_iff_toRat.1 hle') (lt_iff_toRat.1 hold₁)
      (le_iff_toRat.1 hle)
  rw [le_iff_toRat, hvalue, hvalue₁]
  exact nearest_mono 3 (max_le_max_left _ (min_le_min_left _ hratio))

/-- Three hours become three and a half.  The ratio has no end, and it counts as 1.167. -/
theorem ratios_exact_threeHours :
    Policy.standard.fault? = none ∧ HasPlaces 3 Policy.standard.minFactor.toRat ∧
      HasPlaces 3 Policy.standard.maxFactor.toRat ∧
      HasPlaces 6 Significance.standard.minChange.toRat ∧ Decimal.zero < .whole 3 ∧
      Short 2 (10 ^ 9) (.whole 3) ∧ Short 2 (10 ^ 9) (.tenths 35) ∧
      Significance.standard.isSignificant (.whole 3) (.tenths 35) = true ∧
      (Policy.standard.sample (.whole 3) (.tenths 35)).map toRat = some (1167 / 1000) := by
  have hlo : HasPlaces 3 Policy.standard.minFactor.toRat := ⟨800, by decide +kernel⟩
  have hhi : HasPlaces 3 Policy.standard.maxFactor.toRat := ⟨1200, by decide +kernel⟩
  have ht : HasPlaces 6 Significance.standard.minChange.toRat := ⟨10000, by decide +kernel⟩
  have hold : Short 2 (10 ^ 9) (.whole 3) :=
    ⟨by decide, ⟨300, by decide +kernel⟩, by decide +kernel⟩
  have hnew : Short 2 (10 ^ 9) (.tenths 35) :=
    ⟨by decide, ⟨350, by decide +kernel⟩, by decide +kernel⟩
  obtain ⟨hlogged, ⟨x, hx, hvalue⟩, -⟩ := ratios_exact .standard .standard (by decide) hlo hhi ht
    (.whole 3) (.tenths 35) (by decide) hold hnew
  refine ⟨by decide, hlo, hhi, ht, by decide, hold, hnew, hlogged.2 (by decide +kernel), ?_⟩
  rw [hx, Option.map_some, hvalue]
  decide +kernel

end Learning
end Estimating
