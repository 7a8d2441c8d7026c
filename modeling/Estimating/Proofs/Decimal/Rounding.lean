/-
Rounding keeps the order, and rounding twice is rounding once.

A decimal is compared with others through its value in units of the last place that any decimal can
have.  Rounding acts on that number alone: a number is rounded, not the digits that write it.

* `Decimal.units` — the value of a decimal in units of `10 ^ -28`; `Decimal.le_iff_units` says that
  the order is theirs;
* `Decimal.units_roundTo` — rounding acts on the units;
* `Decimal.roundTo_mono` — **rounding keeps the order**;
* `Decimal.roundTo_roundTo` — **rounding twice is rounding once**;
* `Decimal.Tidy` — how a rounded decimal is written; rounded decimals with one value are written
  alike (`Decimal.Tidy.eq`).
-/
import Estimating.Decimal.Rounding
import Mathlib.Algebra.Order.Ring.Int
import Mathlib.Tactic.Ring

set_option autoImplicit false

namespace Estimating.Decimal

/-! ### Units -/

/-- The value in units of `10 ^ -28`. -/
def units (x : Decimal) : Int := x.coeff * 10 ^ (28 - x.scale)

theorem pow_pos (k : Nat) : (0 : Int) < 10 ^ k := Int.pow_pos (by decide)

theorem pow_mul_pow (x : Decimal) : (10 : Int) ^ x.scale * 10 ^ (28 - x.scale) = 10 ^ 28 := by
  rw [← Int.pow_add, Nat.add_sub_cancel' x.scale_le]

/-- The order of decimals is that of their units. -/
theorem le_iff_units {a b : Decimal} : a ≤ b ↔ a.units ≤ b.units := by
  have ha := a.pow_mul_pow
  have hb := b.pow_mul_pow
  have hpos : (0 : Int) < 10 ^ (28 - a.scale) * 10 ^ (28 - b.scale) :=
    Int.mul_pos (pow_pos _) (pow_pos _)
  have hleft : a.coeff * 10 ^ b.scale * (10 ^ (28 - a.scale) * 10 ^ (28 - b.scale)) =
      a.units * 10 ^ 28 := by
    rw [units, ← hb]
    ring
  have hright : b.coeff * 10 ^ a.scale * (10 ^ (28 - a.scale) * 10 ^ (28 - b.scale)) =
      b.units * 10 ^ 28 := by
    rw [units, ← ha]
    ring
  rw [le_iff, ← mul_le_mul_iff_of_pos_right hpos, hleft, hright,
    mul_le_mul_iff_of_pos_right (pow_pos 28)]

theorem lt_iff_units {a b : Decimal} : a < b ↔ a.units < b.units := by
  rw [← not_le, le_iff_units, Int.not_le]

protected theorem le_trans {a b c : Decimal} (h : a ≤ b) (h' : b ≤ c) : a ≤ c :=
  le_iff_units.2 (Int.le_trans (le_iff_units.1 h) (le_iff_units.1 h'))

protected theorem lt_of_lt_of_le {a b c : Decimal} (h : a < b) (h' : b ≤ c) : a < c :=
  lt_iff_units.2 (Int.lt_of_lt_of_le (lt_iff_units.1 h) (le_iff_units.1 h'))

/-! ### Rounding of whole numbers -/

/-- A quotient with ties away from zero is that of the dividend and half a divisor more. -/
theorem roundDiv_awayFromZero (n : Nat) {d : Nat} (hd : 0 < d) :
    roundDiv .awayFromZero n d = (2 * n + d) / (2 * d) := by
  have hdiv : 2 * n + d = 2 * d * (n / d) + (2 * (n % d) + d) := by
    have h := Nat.div_add_mod n d
    calc 2 * n + d
      _ = 2 * (d * (n / d) + n % d) + d := by rw [h]
      _ = 2 * d * (n / d) + (2 * (n % d) + d) := by ring
  have hlt := Nat.mod_lt n hd
  rw [hdiv, Nat.mul_add_div (by omega)]
  unfold roundDiv
  split
  · have hquot : (2 * (n % d) + d) / (2 * d) = 0 := Nat.div_eq_of_lt (by omega)
    rw [hquot, Nat.add_zero]
  · have hquot : (2 * (n % d) + d) / (2 * d) = 1 := Nat.div_eq_of_lt_le (by omega) (by omega)
    rw [if_neg (by simp), hquot]

theorem roundDiv_mono {n m d : Nat} (hd : 0 < d) (h : n ≤ m) :
    roundDiv .awayFromZero n d ≤ roundDiv .awayFromZero m d := by
  rw [roundDiv_awayFromZero n hd, roundDiv_awayFromZero m hd]
  exact Nat.div_le_div_right (by omega)

theorem roundDiv_mul_right (n : Nat) {d m : Nat} (hd : 0 < d) (hm : 0 < m) :
    roundDiv .awayFromZero (n * m) (d * m) = roundDiv .awayFromZero n d := by
  rw [roundDiv_awayFromZero _ (Nat.mul_pos hd hm), roundDiv_awayFromZero n hd]
  have hnum : 2 * (n * m) + d * m = (2 * n + d) * m := by ring
  have hden : 2 * (d * m) = 2 * d * m := by ring
  rw [hnum, hden, Nat.mul_div_mul_right _ _ hm]

theorem dropDigits_natCast (tie : Tie) (n k : Nat) :
    dropDigits tie n k = roundDiv tie n (10 ^ k) := by
  unfold dropDigits
  cases n with
  | zero => simp [roundDiv_zero tie (10 ^ k) (Nat.pow_pos (by decide))]
  | succ n =>
      rw [Int.sign_eq_one_of_pos (by omega), Int.one_mul, Int.natAbs_natCast]

theorem dropDigits_neg (tie : Tie) (c : Int) (k : Nat) :
    dropDigits tie (-c) k = -dropDigits tie c k := by
  simp [dropDigits]

/-- Dropping digits keeps the order. -/
theorem dropDigits_mono {c c' : Int} (h : c ≤ c') (k : Nat) :
    dropDigits .awayFromZero c k ≤ dropDigits .awayFromZero c' k := by
  have hd : 0 < 10 ^ k := Nat.pow_pos (by decide)
  obtain ⟨n, rfl | rfl⟩ := c.eq_nat_or_neg
  · obtain ⟨m, rfl | rfl⟩ := c'.eq_nat_or_neg
    · rw [dropDigits_natCast, dropDigits_natCast]
      exact Int.ofNat_le.2 (roundDiv_mono hd (Int.ofNat_le.1 h))
    · obtain rfl : n = 0 := by omega
      obtain rfl : m = 0 := by omega
      rfl
  · obtain ⟨m, rfl | rfl⟩ := c'.eq_nat_or_neg
    · rw [dropDigits_neg, dropDigits_natCast, dropDigits_natCast]
      omega
    · rw [dropDigits_neg, dropDigits_neg, dropDigits_natCast, dropDigits_natCast]
      have hmn : m ≤ n := by omega
      have := roundDiv_mono hd hmn
      omega

/-- Zeros at the end are dropped first. -/
theorem dropDigits_mul_pow (c : Int) (k j : Nat) :
    dropDigits .awayFromZero (c * 10 ^ j) (k + j) = dropDigits .awayFromZero c k := by
  have hsign : (c * 10 ^ j).sign = c.sign := by
    rw [Int.sign_mul, Int.sign_eq_one_of_pos (pow_pos j), Int.mul_one]
  have habs : (c * 10 ^ j).natAbs = c.natAbs * 10 ^ j := by
    rw [Int.natAbs_mul, Int.natAbs_pow]
    rfl
  rw [dropDigits, hsign, habs, Nat.pow_add,
    roundDiv_mul_right _ (Nat.pow_pos (by decide)) (Nat.pow_pos (by decide)), dropDigits]

theorem dropDigits_zero (tie : Tie) (c : Int) : dropDigits tie c 0 = c := by
  rw [dropDigits, Nat.pow_zero, roundDiv_one, Int.sign_mul_natAbs]

/-! ### Rounding of decimals -/

theorem units_appendZeros (x : Decimal) (n : Nat) : (x.appendZeros n).units = x.units := by
  have hk := spareDigits_le (min n (maxScale - x.scale)) x.size
  have hscale := x.scale_le
  have hmax : maxScale = 28 := rfl
  unfold appendZeros
  simp only [units, coeff_ofCoeff, scale_ofCoeff]
  rw [Int.natCast_pow, Int.mul_assoc]
  show x.coeff * (10 ^ _ * 10 ^ _) = _
  rw [← Int.pow_add]
  congr 2
  omega

/-- Rounding acts on the units. -/
theorem units_roundTo (x : Decimal) {n : Nat} (hn : n ≤ 28) :
    (x.roundTo n).units = dropDigits .awayFromZero x.units (28 - n) * 10 ^ (28 - n) := by
  have hscale := x.scale_le
  unfold roundTo
  split
  · next h =>
      have hk : 28 - n = x.scale - n + (28 - x.scale) := by omega
      simp only [units, coeff_ofCoeff, scale_ofCoeff]
      nth_rewrite 2 [hk]
      rw [dropDigits_mul_pow]
  · next h =>
      rw [units_appendZeros]
      have hunits : x.units = x.coeff * 10 ^ (n - x.scale) * 10 ^ (28 - n) := by
        rw [units, Int.mul_assoc, ← Int.pow_add]
        congr 2
        omega
      have hdrop := dropDigits_mul_pow (x.coeff * 10 ^ (n - x.scale)) 0 (28 - n)
      rw [Nat.zero_add, dropDigits_zero, ← hunits] at hdrop
      rw [hdrop, hunits]

/-- **Rounding keeps the order.** -/
theorem roundTo_mono {x y : Decimal} (h : x ≤ y) {n : Nat} (hn : n ≤ 28) :
    x.roundTo n ≤ y.roundTo n := by
  rw [le_iff_units, units_roundTo x hn, units_roundTo y hn]
  exact Int.mul_le_mul_of_nonneg_right (dropDigits_mono (le_iff_units.1 h) _)
    (Int.le_of_lt (pow_pos _))

/-! ### How a rounded decimal is written -/

/-- A decimal written with `n` fraction digits, or with as many as fit, and without a sign if it is
zero. -/
structure Tidy (n : Nat) (x : Decimal) : Prop where
  sign : x.negative = decide (x.coeff < 0)
  scale_le : x.scale ≤ n
  full : x.scale = n ∨ coeffBound ≤ x.size * 10

/-- No further zero fits. -/
theorem coeffBound_le_of_spareDigits_lt {n : Nat} : ∀ {m : Nat}, spareDigits n m < n →
    coeffBound ≤ m * 10 ^ spareDigits n m * 10 := by
  induction n with
  | zero => intro m h; exact absurd h (Nat.not_lt_zero _)
  | succ n ih =>
      intro m h
      unfold spareDigits at h ⊢
      split
      · next hm =>
          rw [if_pos hm] at h
          have := ih (Nat.lt_of_succ_lt_succ h)
          rw [Nat.pow_succ, Nat.mul_comm (10 ^ _) 10, ← Nat.mul_assoc]
          exact this
      · next hm =>
          rw [Nat.pow_zero, Nat.mul_one]
          exact Nat.not_lt.1 hm

theorem tidy_roundTo (x : Decimal) {n : Nat} (hn : n ≤ 28) : Tidy n (x.roundTo n) := by
  unfold roundTo
  split
  · exact ⟨by rw [coeff_ofCoeff]; rfl, Nat.le_refl _, .inl rfl⟩
  · next h =>
      have hmin : min (n - x.scale) (maxScale - x.scale) = n - x.scale := by
        have : maxScale = 28 := rfl
        omega
      have hk := spareDigits_le (n - x.scale) x.size
      unfold appendZeros
      simp only [hmin]
      refine ⟨by rw [coeff_ofCoeff]; rfl, ?_, ?_⟩
      · rw [scale_ofCoeff]
        omega
      · show x.scale + _ = n ∨
          coeffBound ≤ (x.coeff * (10 ^ spareDigits (n - x.scale) x.size : Nat)).natAbs * 10
        rw [Int.natAbs_mul, natAbs_coeff, Int.natAbs_natCast]
        rcases Nat.lt_or_eq_of_le hk with hlt | heq
        · exact .inr (coeffBound_le_of_spareDigits_lt hlt)
        · exact .inl (by omega)

theorem Tidy.scale_eq_of_le {n : Nat} {x y : Decimal} (hx : Tidy n x) (hy : Tidy n y)
    (h : x.units = y.units) (hle : x.scale ≤ y.scale) : x.scale = y.scale := by
  by_contra hne
  have hbound : coeffBound ≤ x.size * 10 := by
    rcases hx.full with hfull | hfull
    · have := hy.scale_le
      omega
    · exact hfull
  -- with further places the larger number of digits no longer fits
  have hplaces : 28 - x.scale = y.scale - x.scale + (28 - y.scale) := by
    have := y.scale_le
    omega
  rw [units, units, hplaces, Int.pow_add, ← Int.mul_assoc] at h
  have hcoeff := Int.eq_of_mul_eq_mul_right (Int.ne_of_gt (pow_pos _)) h
  have hsize : y.size = x.size * 10 ^ (y.scale - x.scale) := by
    rw [← y.natAbs_coeff, ← hcoeff, Int.natAbs_mul, natAbs_coeff, Int.natAbs_pow]
    rfl
  have hten : 10 ^ 1 ≤ 10 ^ (y.scale - x.scale) := Nat.pow_le_pow_right (by decide) (by omega)
  have hlarge : x.size * 10 ^ 1 ≤ y.size := hsize ▸ Nat.mul_le_mul_left _ hten
  exact absurd y.size_lt (Nat.not_lt.2 (Nat.le_trans hbound hlarge))

/-- Decimals with one value are written alike, once they are rounded. -/
theorem Tidy.eq {n : Nat} {x y : Decimal} (hx : Tidy n x) (hy : Tidy n y)
    (h : x.units = y.units) : x = y := by
  have hscale : x.scale = y.scale := by
    rcases Nat.le_total x.scale y.scale with hle | hle
    · exact hx.scale_eq_of_le hy h hle
    · exact (hy.scale_eq_of_le hx h.symm hle).symm
  rw [units, units, hscale] at h
  have hcoeff := Int.eq_of_mul_eq_mul_right (Int.ne_of_gt (pow_pos _)) h
  have hsign : x.negative = y.negative := by rw [hx.sign, hy.sign, hcoeff]
  have hsize : x.size = y.size := by rw [← natAbs_coeff, ← natAbs_coeff, hcoeff]
  cases x
  cases y
  cases hsign
  cases hsize
  cases hscale
  rfl

/-- Rounded decimals are equal as soon as neither is below the other. -/
theorem roundTo_eq_of_le_of_le {x y : Decimal} {n : Nat} (hn : n ≤ 28)
    (h : x.roundTo n ≤ y.roundTo n) (h' : y.roundTo n ≤ x.roundTo n) :
    x.roundTo n = y.roundTo n :=
  (tidy_roundTo x hn).eq (tidy_roundTo y hn)
    (Int.le_antisymm (le_iff_units.1 h) (le_iff_units.1 h'))

/-- **Rounding twice is rounding once.** -/
theorem roundTo_roundTo (x : Decimal) {n : Nat} (hn : n ≤ 28) :
    (x.roundTo n).roundTo n = x.roundTo n := by
  refine (tidy_roundTo _ hn).eq (tidy_roundTo x hn) ?_
  have hdrop := dropDigits_mul_pow (dropDigits .awayFromZero x.units (28 - n)) 0 (28 - n)
  rw [Nat.zero_add, dropDigits_zero] at hdrop
  rw [units_roundTo _ hn, units_roundTo x hn, hdrop]

end Estimating.Decimal
