/-
When a decimal is too large.

A value has a decimal near it as long as it is below the bound of all sizes by more than half a
unit.  Sums and products are there exactly where their values are of that kind.

* `Decimal.toRat_eq_mkRat`, `Decimal.le_iff_toRat` — decimals as rational numbers;
* `Decimal.Fits` — a value has a decimal near it;
* `Decimal.excessDigits_le_iff`, `Decimal.roundDiv_toEven_le_iff` — how many digits are too many,
  and when a rounded quotient is too large;
* `Decimal.fit_isSome_iff` — what can be fitted;
* `Decimal.mul_isSome_iff`, `Decimal.add_isSome_iff` — **when a product or a sum is too large**;
* `Decimal.AtMost` — a bound on the value of a number, and where it keeps results in range
  (`Decimal.AtMost.fits_mul`, `Decimal.AtMost.fits_add`, `Decimal.AtMost.roundTo`).
-/
import Estimating.Decimal.Arithmetic
import Estimating.Proofs.Decimal.Rounding
import Mathlib.Algebra.Order.Field.Basic
import Mathlib.Data.Rat.Lemmas
import Mathlib.Tactic.Linarith

set_option autoImplicit false

namespace Estimating.Decimal

/-! ### Values -/

theorem cast_pow_pos (k : Nat) : (0 : Rat) < (10 ^ k : Nat) :=
  Nat.cast_pos.2 (Nat.pow_pos (by decide))

theorem abs_mkRat (c : Int) (s : Nat) : |mkRat c (10 ^ s)| = (c.natAbs : Rat) / (10 ^ s : Nat) := by
  rw [Rat.mkRat_eq_div, abs_div, Nat.abs_cast]
  congr 1
  rw [Nat.cast_natAbs, Int.cast_abs]

/-- The value of a number, with more fraction digits. -/
theorem toRat_eq_mkRat {x : Decimal} {s : Nat} (h : x.scale ≤ s) :
    x.toRat = mkRat (x.coeff * 10 ^ (s - x.scale)) (10 ^ s) := by
  have hpow : 10 ^ s = 10 ^ x.scale * 10 ^ (s - x.scale) := by
    rw [← Nat.pow_add, Nat.add_sub_cancel' h]
  have hne : 10 ^ (s - x.scale) ≠ 0 := Nat.ne_of_gt (Nat.pow_pos (by decide))
  rw [toRat, hpow, ← Rat.mkRat_mul_right hne, Int.natCast_pow]
  rfl

theorem toRat_of_parts {c : Int} {s : Nat} {x : Decimal} (h : ofParts? c s = some x) :
    x.toRat = mkRat c (10 ^ s) := by
  obtain ⟨hcoeff, hscale⟩ := ofParts?_eq_some h
  rw [toRat, hcoeff, hscale]

theorem toRat_eq_units (x : Decimal) : x.toRat = mkRat x.units (10 ^ 28) :=
  toRat_eq_mkRat x.scale_le

/-- Decimals have one value if and only if they are as many units. -/
theorem toRat_eq_iff {x y : Decimal} : x.toRat = y.toRat ↔ x.units = y.units := by
  have hne : 10 ^ 28 ≠ 0 := by decide
  rw [toRat_eq_units, toRat_eq_units, Rat.mkRat_eq_iff hne hne]
  exact mul_eq_mul_right_iff.trans (or_iff_left (by decide))

/-- The order of decimals is that of their values. -/
theorem le_iff_toRat {x y : Decimal} : x ≤ y ↔ x.toRat ≤ y.toRat := by
  rw [le_iff_units, toRat_eq_units, toRat_eq_units, Rat.mkRat_eq_div, Rat.mkRat_eq_div,
    div_le_div_iff_of_pos_right (cast_pow_pos 28), Int.cast_le]

theorem lt_iff_toRat {x y : Decimal} : x < y ↔ x.toRat < y.toRat := by
  rw [← not_le, le_iff_toRat, Rat.not_le]

theorem toRat_of_isZero {x : Decimal} (h : x.isZero = true) : x.toRat = 0 := by
  have hcoeff : x.coeff = 0 := by
    rw [← Int.natAbs_eq_zero, natAbs_coeff]
    exact beq_iff_eq.1 h
  rw [toRat, hcoeff, Rat.zero_mkRat]

theorem toRat_eq_zero_iff {x : Decimal} : x.toRat = 0 ↔ x.isZero = true := by
  refine ⟨fun h => ?_, toRat_of_isZero⟩
  have hcoeff : x.coeff = 0 := by
    rwa [toRat, Rat.mkRat_eq_zero (Nat.ne_of_gt (Nat.pow_pos (by decide)))] at h
  have hsize : x.size = 0 := by rw [← natAbs_coeff, hcoeff]; rfl
  rw [isZero, hsize]
  rfl

@[simp] theorem toRat_neg (x : Decimal) : x.neg.toRat = -x.toRat := by
  have hscale : x.neg.scale = x.scale := by
    unfold neg
    split <;> rfl
  rw [toRat, coeff_neg, hscale, toRat, Rat.neg_mkRat]

@[simp] theorem toRat_zero : zero.toRat = 0 := rfl

/-! ### Values that fit -/

/-- A value has a decimal near it: it is below the bound by more than half a unit. -/
def Fits (q : Rat) : Prop := |q| < coeffBound - 1 / 2

/-- A number has at most `k` digits too many if and only if it is below the bound times `10 ^ k`. -/
theorem excessDigits_le_iff (m : Nat) : ∀ k, excessDigits m ≤ k ↔ m < coeffBound * 10 ^ k := by
  induction m using excessDigits.induct with
  | case1 m hm =>
      intro k
      unfold excessDigits
      rw [if_pos hm]
      have hk : coeffBound ≤ coeffBound * 10 ^ k :=
        Nat.le_mul_of_pos_right _ (Nat.pow_pos (by decide))
      exact iff_of_true (Nat.zero_le k) (Nat.lt_of_lt_of_le hm hk)
  | case2 m hm ih =>
      intro k
      unfold excessDigits
      rw [if_neg hm]
      cases k with
      | zero => exact iff_of_false (Nat.not_succ_le_zero _) (by simpa [coeffBound] using hm)
      | succ k =>
          rw [Nat.succ_le_succ_iff, ih, Nat.div_lt_iff_lt_mul (by decide), Nat.pow_succ,
            Nat.mul_assoc]

/-- With ties to the even neighbour, a rounded quotient is at most an odd number as long as the
quotient is above it by less than a half. -/
theorem roundDiv_toEven_le_iff {n d b : Nat} (hd : 0 < d) (hodd : b % 2 = 1) :
    roundDiv .toEven n d ≤ b ↔ 2 * n < (2 * b + 1) * d := by
  have hn : 2 * n = 2 * (d * (n / d)) + 2 * (n % d) := by
    rw [← Nat.mul_add, Nat.div_add_mod]
  have hr := Nat.mod_lt n hd
  have hb : (2 * b + 1) * d = 2 * (d * b) + d := by ring
  rw [hn, hb]
  unfold roundDiv
  rcases Nat.lt_trichotomy (n / d) b with hlt | heq | hgt
  · have hmul : d * (n / d) + d ≤ d * b := Nat.mul_le_mul_left d hlt
    refine iff_of_true ?_ (by omega)
    split
    · exact Nat.le_of_lt hlt
    · split
      · exact Nat.le_of_lt hlt
      · exact hlt
  · rw [heq]
    split
    · exact iff_of_true (Nat.le_refl b) (by omega)
    · refine iff_of_false ?_ (by omega)
      rw [if_neg (by omega)]
      exact Nat.not_succ_le_self b
  · have hmul : d * b + d ≤ d * (n / d) := Nat.mul_le_mul_left d hgt
    refine iff_of_false ?_ (by omega)
    split
    · exact Nat.not_le_of_lt hgt
    · split
      · exact Nat.not_le_of_lt hgt
      · omega

theorem natAbs_dropDigits (tie : Tie) (c : Int) (k : Nat) :
    (dropDigits tie c k).natAbs = roundDiv tie c.natAbs (10 ^ k) := by
  obtain ⟨n, rfl | rfl⟩ := c.eq_nat_or_neg
  · rw [dropDigits_natCast, Int.natAbs_natCast, Int.natAbs_natCast]
  · rw [dropDigits_neg, dropDigits_natCast, Int.natAbs_neg, Int.natAbs_neg, Int.natAbs_natCast,
      Int.natAbs_natCast]

theorem shorten?_isSome {c : Int} {s k : Nat} : (shorten? c s k).isSome ↔
    k ≤ s ∧ s ≤ k + 28 ∧ 2 * c.natAbs < (2 * coeffBound - 1) * 10 ^ k := by
  have hround : roundDiv .toEven c.natAbs (10 ^ k) < 2 ^ 96 ↔
      2 * c.natAbs < (2 * coeffBound - 1) * 10 ^ k :=
    Nat.lt_succ_iff.trans (roundDiv_toEven_le_iff (Nat.pow_pos (by decide)) (by decide))
  unfold shorten?
  split
  · next hk =>
      rw [ofParts?_isSome, natAbs_dropDigits, hround]
      omega
  · next hk => exact iff_of_false nofun fun h => hk h.1

/-- There is room for a value that stays below the bound by more than half a unit. -/
theorem fit_isSome_iff {c : Int} {s : Nat} :
    (fit c s).isSome ↔ 2 * c.natAbs < (2 * coeffBound - 1) * 10 ^ s := by
  have hmono {j k : Nat} (h : j ≤ k) :
      (2 * coeffBound - 1) * 10 ^ j ≤ (2 * coeffBound - 1) * 10 ^ k :=
    Nat.mul_le_mul_left _ (Nat.pow_le_pow_right (by decide) h)
  have hexcess := excessDigits_le_iff c.natAbs
  unfold fit
  generalize hk : max (s - maxScale) (excessDigits c.natAbs) = k
  have hmax : maxScale = 28 := rfl
  rw [Option.isSome_or, Bool.or_eq_true, shorten?_isSome, shorten?_isSome]
  constructor
  · rintro (⟨hle, -, hlt⟩ | ⟨hle, -, hlt⟩)
    · exact Nat.lt_of_lt_of_le hlt (hmono hle)
    · exact Nat.lt_of_lt_of_le hlt (hmono hle)
  · intro h
    have hle : k ≤ s := by
      have hs : excessDigits c.natAbs ≤ s := by
        refine (hexcess s).2 ?_
        have hbound : (2 * coeffBound - 1) * 10 ^ s ≤ 2 * (coeffBound * 10 ^ s) := by
          rw [← Nat.mul_assoc]
          exact Nat.mul_le_mul_right _ (Nat.sub_le _ _)
        omega
      omega
    have hfloor : c.natAbs < coeffBound * 10 ^ k := (hexcess k).1 (by omega)
    -- rounding may bring the coefficient to the bound, and then one more digit is dropped
    by_cases hround : 2 * c.natAbs < (2 * coeffBound - 1) * 10 ^ k
    · exact .inl ⟨hle, by omega, hround⟩
    · have hne : k ≠ s := fun hks => hround (hks ▸ h)
      refine .inr ⟨by omega, by omega, ?_⟩
      have hten : 2 * (coeffBound * 10 ^ k) ≤ (2 * coeffBound - 1) * 10 ^ (k + 1) := by
        rw [Nat.pow_succ, Nat.mul_comm (10 ^ k), ← Nat.mul_assoc, ← Nat.mul_assoc]
        exact Nat.mul_le_mul_right _ (by decide)
      omega

theorem fits_mkRat_iff {c : Int} {s : Nat} :
    Fits (mkRat c (10 ^ s)) ↔ 2 * c.natAbs < (2 * coeffBound - 1) * 10 ^ s := by
  have hpos := cast_pow_pos s
  have hbound : (coeffBound : Rat) - 1 / 2 = (2 * coeffBound - 1 : Nat) / 2 := by
    rw [Nat.cast_sub (by decide)]
    push_cast
    ring
  rw [Fits, abs_mkRat, div_lt_iff₀ hpos, hbound, div_mul_eq_mul_div, lt_div_iff₀ two_pos,
    mul_comm (c.natAbs : Rat)]
  exact_mod_cast Iff.rfl

/-- The value of a decimal fits. -/
theorem fits_toRat (x : Decimal) : Fits x.toRat := by
  have hsize : x.size < coeffBound := x.size_lt
  have hpow : 2 * coeffBound - 1 ≤ (2 * coeffBound - 1) * 10 ^ x.scale :=
    Nat.le_mul_of_pos_right _ (Nat.pow_pos (by decide))
  rw [toRat, fits_mkRat_iff, natAbs_coeff]
  omega

/-- The value of a number is at most `b` in size. -/
def AtMost (b : Nat) (x : Decimal) : Prop := x.size ≤ b * 10 ^ x.scale

instance (b : Nat) (x : Decimal) : Decidable (x.AtMost b) := inferInstanceAs (Decidable (_ ≤ _))

theorem atMost_iff {b : Nat} {x : Decimal} : x.AtMost b ↔ |x.toRat| ≤ b := by
  rw [toRat, abs_mkRat, natAbs_coeff, div_le_iff₀ (cast_pow_pos _), ← Nat.cast_mul, Nat.cast_le]
  rfl

theorem atMost_coeffBound (x : Decimal) : x.AtMost coeffBound :=
  Nat.le_trans (Nat.le_of_lt x.size_lt) (Nat.le_mul_of_pos_right _ (Nat.pow_pos (by decide)))

theorem fits_of_abs_le {q : Rat} {b : Nat} (h : |q| ≤ b) (hb : b < coeffBound) : Fits q := by
  have hsucc : (b : Rat) + 1 ≤ coeffBound := by exact_mod_cast hb
  unfold Fits
  linarith

/-- **A product is too large if and only if its value does not fit.** -/
theorem mul_isSome_iff {a b : Decimal} : (a.mul b).isSome ↔ Fits (a.toRat * b.toRat) := by
  unfold mul
  split
  · next hzero =>
      have hproduct : a.toRat * b.toRat = zero.toRat := by
        rcases Bool.or_eq_true_iff.1 hzero with ha | hb
        · rw [toRat_of_isZero ha, zero_mul]
          rfl
        · rw [toRat_of_isZero hb, mul_zero]
          rfl
      exact iff_of_true rfl (hproduct ▸ fits_toRat zero)
  · rw [fit_isSome_iff, ← fits_mkRat_iff, toRat, toRat, Rat.mkRat_mul_mkRat, Nat.pow_add]

/-- **A sum is too large if and only if its value does not fit.** -/
theorem add_isSome_iff {a b : Decimal} : (a.add b).isSome ↔ Fits (a.toRat + b.toRat) := by
  unfold add
  split
  · next ha =>
      rw [toRat_of_isZero ha, zero_add]
      exact iff_of_true rfl b.fits_toRat
  · split
    · next hb =>
        rw [toRat_of_isZero hb, add_zero]
        exact iff_of_true rfl a.fits_toRat
    · rw [fit_isSome_iff, ← fits_mkRat_iff,
        toRat_eq_mkRat (Nat.le_max_left a.scale b.scale),
        toRat_eq_mkRat (Nat.le_max_right a.scale b.scale),
        Rat.mkRat_add_mkRat_of_den _ _ (Nat.ne_of_gt (Nat.pow_pos (by decide)))]

/-! ### Bounds on results -/

theorem roundDiv_le_of_le_mul {n d b : Nat} (tie : Tie) (hd : 0 < d) (h : n ≤ b * d) :
    roundDiv tie n d ≤ b := by
  have hn := Nat.div_add_mod n d
  rw [Nat.mul_comm] at h
  rcases Nat.lt_or_eq_of_le (Nat.div_le_of_le_mul h) with hlt | heq
  · unfold roundDiv
    split
    · exact Nat.le_of_lt hlt
    · split
      · exact Nat.le_of_lt hlt
      · exact hlt
  · -- nothing is left to be rounded
    have hmod : n % d = 0 := by
      rw [heq] at hn
      omega
    rw [roundDiv, hmod, if_pos hd]
    exact Nat.le_of_eq heq

theorem AtMost.mono {a b : Nat} {x : Decimal} (h : x.AtMost a) (hab : a ≤ b) : x.AtMost b :=
  Nat.le_trans h (Nat.mul_le_mul_right _ hab)

theorem atMost_zero (b : Nat) : zero.AtMost b := Nat.zero_le _

/-- A bound on the value of a number is one on its digits, with more of them behind the point. -/
theorem atMost_iff_natAbs {b s : Nat} {x : Decimal} (hs : x.scale ≤ s) :
    x.AtMost b ↔ (x.coeff * 10 ^ (s - x.scale)).natAbs ≤ b * 10 ^ s := by
  have hpow : 10 ^ s = 10 ^ x.scale * 10 ^ (s - x.scale) := by
    rw [← Nat.pow_add, Nat.add_sub_cancel' hs]
  have habs : (x.coeff * 10 ^ (s - x.scale)).natAbs = x.size * 10 ^ (s - x.scale) := by
    rw [Int.natAbs_mul, natAbs_coeff, Int.natAbs_pow]
    rfl
  rw [habs, hpow, ← Nat.mul_assoc]
  exact (Nat.mul_le_mul_right_iff (Nat.pow_pos (by decide))).symm

theorem AtMost.roundTo {b : Nat} {x : Decimal} (h : x.AtMost b) {n : Nat} (hn : n ≤ 28) :
    (x.roundTo n).AtMost b := by
  have hunits : x.units.natAbs ≤ b * 10 ^ n * 10 ^ (28 - n) := by
    rw [Nat.mul_assoc, ← Nat.pow_add, Nat.add_sub_cancel' hn]
    exact (atMost_iff_natAbs x.scale_le).1 h
  refine (atMost_iff_natAbs (x.roundTo n).scale_le).2 ?_
  show (x.roundTo n).units.natAbs ≤ _
  rw [units_roundTo x hn, Int.natAbs_mul, natAbs_dropDigits, Int.natAbs_pow]
  calc roundDiv .awayFromZero x.units.natAbs (10 ^ (28 - n)) * 10 ^ (28 - n)
    _ ≤ b * 10 ^ n * 10 ^ (28 - n) :=
        Nat.mul_le_mul_right _ (roundDiv_le_of_le_mul _ (Nat.pow_pos (by decide)) hunits)
    _ = b * 10 ^ 28 := by rw [Nat.mul_assoc, ← Nat.pow_add, Nat.add_sub_cancel' hn]

/-- A number between nothing and another one is at most what that is at most. -/
theorem AtMost.of_le {b : Nat} {x y : Decimal} (hy : y.AtMost b) (hx : .zero ≤ x) (hxy : x ≤ y) :
    x.AtMost b := by
  have hbound := (atMost_iff_natAbs y.scale_le).1 hy
  have hnonneg := le_iff_units.1 hx
  have hle := le_iff_units.1 hxy
  have hzero : zero.units = 0 := by decide
  refine (atMost_iff_natAbs x.scale_le).2 ?_
  show x.units.natAbs ≤ _
  have hbound : y.units.natAbs ≤ b * 10 ^ 28 := hbound
  omega

theorem AtMost.fits_mul {a b : Nat} {x y : Decimal} (hx : x.AtMost a) (hy : y.AtMost b)
    (h : a * b < coeffBound) : Fits (x.toRat * y.toRat) := by
  refine fits_of_abs_le ?_ h
  rw [abs_mul, Nat.cast_mul]
  exact mul_le_mul (atMost_iff.1 hx) (atMost_iff.1 hy) (abs_nonneg _) (Nat.cast_nonneg _)

theorem AtMost.fits_add {a b : Nat} {x y : Decimal} (hx : x.AtMost a) (hy : y.AtMost b)
    (h : a + b < coeffBound) : Fits (x.toRat + y.toRat) := by
  refine fits_of_abs_le ?_ h
  rw [Nat.cast_add]
  exact (abs_add_le _ _).trans (add_le_add (atMost_iff.1 hx) (atMost_iff.1 hy))

end Estimating.Decimal
