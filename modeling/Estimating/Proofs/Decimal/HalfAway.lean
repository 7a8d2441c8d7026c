/-
Rounding to a number of fraction digits.

Every quantity, amount and factor is rounded before it is kept.  What is kept is told by its value
alone: it is the value with so many fraction digits that is nearest, and of two that are equally near
the one further from zero.  This leaves one way of writing it, since a zero has no sign and zeros are
appended as long as they fit.

* `Decimal.IsNearestAway` — the nearest whole number, a half going away from zero, and
  `Decimal.IsNearestAway.lt_or_tie`, which compares it with any other one;
* `Decimal.IsRounded` — the nearest value with `n` fraction digits, and `Decimal.IsRounded.eq`: there
  is only one;
* `Decimal.isRounded_roundTo` — **rounding finds the nearest value**;
* `Decimal.Tidy.neg`, `Decimal.Tidy.scale_eq_iff` — the sign and the places of what is kept;
* `Decimal.roundTo_laws` — **all that is known of rounding**.
-/
import Estimating.Proofs.Decimal.Exact

set_option autoImplicit false

namespace Estimating.Decimal

variable {n : Nat} {q r r' : Rat} {k : Int}

/-! ### Whole numbers -/

/-- `k` is the whole number nearest to `q`, and the one further from zero where there are two. -/
structure IsNearestAway (q : Rat) (k : Int) : Prop where
  near : |q - k| ≤ 1 / 2
  away : |q - k| = 1 / 2 → |q| < |(k : Rat)|

theorem IsNearestAway.neg (h : IsNearestAway q k) : IsNearestAway (-q) (-k) := by
  have habs : |-q - ((-k : Int) : Rat)| = |q - k| := by
    rw [Int.cast_neg, ← abs_neg]
    congr 1
    ring
  refine ⟨habs ▸ h.near, fun htie => ?_⟩
  rw [Int.cast_neg, abs_neg, abs_neg]
  exact h.away (habs ▸ htie)

theorem isNearestAway_nearestInt (q : Rat) : IsNearestAway q (nearestInt q) := by
  have hnonneg {q : Rat} (hq : 0 ≤ q) : IsNearestAway q (nearestInt q) := by
    rw [nearestInt_of_nonneg hq]
    have hlow := Int.floor_le (q + 1 / 2)
    have hhigh := Int.lt_floor_add_one (q + 1 / 2)
    refine ⟨abs_le.2 ⟨by linarith, by linarith⟩, fun htie => ?_⟩
    rcases (abs_eq (by norm_num)).1 htie with h | h
    · linarith
    · rw [abs_of_nonneg hq, abs_of_nonneg (by linarith)]
      linarith
  rcases (Rat.le_total : 0 ≤ q ∨ q ≤ 0) with hq | hq
  · exact hnonneg hq
  · have hneg := (hnonneg (neg_nonneg.2 hq)).neg
    rwa [nearestInt_neg, neg_neg, neg_neg] at hneg

/-- Any other whole number is further away, or it is as near and closer to zero. -/
theorem IsNearestAway.lt_or_tie (h : IsNearestAway q k) {j : Int} (hne : j ≠ k) :
    |q - k| < |q - j| ∨ |q - k| = |q - j| ∧ |(j : Rat)| < |(k : Rat)| := by
  have hone : (1 : Rat) ≤ |(k : Rat) - j| := by
    exact_mod_cast Int.one_le_abs (sub_ne_zero.2 hne.symm)
  have htri := abs_sub_le (k : Rat) q j
  rw [abs_sub_comm (k : Rat) q] at htri
  have hnear := h.near
  rcases lt_or_eq_of_le (show |q - k| ≤ |q - j| by linarith) with hlt | heq
  · exact .inl hlt
  refine .inr ⟨heq, ?_⟩
  -- both are half a unit away, on different sides
  have htie : |q - k| = 1 / 2 := by linarith
  have haway := h.away htie
  have hother : (j : Rat) = 2 * q - k := by
    rcases abs_eq_abs.1 heq with hsame | hsame
    · exact absurd (Int.cast_injective (by linarith : (j : Rat) = k)) hne
    · linarith
  have hint : |(j : Rat)| < |(k : Rat)| + 1 := by
    have hsub := abs_sub_abs_le_abs_sub (j : Rat) q
    rw [abs_sub_comm, ← heq, htie] at hsub
    linarith
  have hle : |j| ≤ |k| := by
    have hlt : |j| < |k| + 1 := by exact_mod_cast hint
    omega
  refine lt_of_le_of_ne (by exact_mod_cast hle) fun hsize => ?_
  rcases abs_eq_abs.1 hsize with hsame | hsame
  · exact hne (Int.cast_injective hsame)
  · have hq : q = 0 := by linarith
    rw [hq, zero_sub, abs_neg] at htie
    have hhalf : (2 : Rat) * |(k : Rat)| = 1 := by linarith
    have htwo : 2 * |k| = 1 := by exact_mod_cast hhalf
    omega

/-! ### Values with fraction digits -/

/-- `r` is the value with `n` fraction digits that is nearest to `q`; of two that are equally near, it
is the one further from zero. -/
structure IsRounded (n : Nat) (q r : Rat) : Prop where
  places : HasPlaces n r
  nearest : ∀ r', HasPlaces n r' → r' ≠ r →
    |q - r| < |q - r'| ∨ |q - r| = |q - r'| ∧ |r'| < |r|

/-- There is only one such value. -/
theorem IsRounded.eq (h : IsRounded n q r) (h' : IsRounded n q r') : r = r' := by
  by_contra hne
  rcases h.nearest r' h'.places (Ne.symm hne) with hlt | ⟨heq, hlt⟩
  · rcases h'.nearest r h.places hne with hlt' | ⟨heq', -⟩
    · exact (hlt.trans hlt').false
    · exact hlt.ne heq'.symm
  · rcases h'.nearest r h.places hne with hlt' | ⟨-, hlt'⟩
    · exact hlt'.ne heq.symm
    · exact (hlt.trans hlt').false

theorem isRounded_nearest (n : Nat) (q : Rat) : IsRounded n q (nearest n q) := by
  have hvalue : nearest n q = mkRat (nearestInt (q * (10 ^ n : Nat))) (10 ^ n) := by
    rw [nearest, Rat.mkRat_eq_div]
  have hpos := cast_pow_pos n
  rw [hvalue]
  refine ⟨⟨_, rfl⟩, fun r' hr' hne => ?_⟩
  obtain ⟨j, rfl⟩ := hr'
  have hj : j ≠ nearestInt (q * (10 ^ n : Nat)) := fun h => hne (by rw [h])
  have habs (c : Int) : |mkRat c (10 ^ n)| = |(c : Rat)| / (10 ^ n : Nat) := by
    rw [Rat.mkRat_eq_div, abs_div, Nat.abs_cast]
  rw [abs_sub_comm q, abs_sub_comm q, abs_mkRat_sub, abs_mkRat_sub, habs, habs,
    div_lt_div_iff_of_pos_right hpos, div_left_inj' hpos.ne', div_lt_div_iff_of_pos_right hpos]
  exact (isNearestAway_nearestInt _).lt_or_tie hj

/-- **Rounding finds the nearest value.** -/
theorem isRounded_roundTo (x : Decimal) (hn : n ≤ 28) :
    IsRounded n x.toRat (x.roundTo n).toRat := by
  rw [toRat_roundTo x hn]
  exact isRounded_nearest n _

/-! ### How it is written -/

variable {x y : Decimal}

theorem Tidy.not_negative (h : Tidy n x) (hzero : x.isZero = true) : x.negative = false := by
  have hsize : x.size = 0 := eq_of_beq hzero
  have hcoeff : x.coeff = 0 := Int.natAbs_eq_zero.1 (x.natAbs_coeff.trans hsize)
  rw [h.sign, hcoeff]
  rfl

theorem Tidy.neg (h : Tidy n x) : Tidy n x.neg := by
  unfold Decimal.neg
  split
  · exact h
  · next hzero =>
      refine ⟨?_, h.scale_le, h.full⟩
      have hsize : x.size ≠ 0 := by simpa [isZero] using hzero
      unfold coeff
      cases x.negative
      · simpa using Nat.pos_of_ne_zero hsize
      · simp

/-- All places are written if and only if there is room for them. -/
theorem Tidy.scale_eq_iff (h : Tidy n x) :
    x.scale = n ↔ |x.toRat| < (coeffBound : Rat) / (10 ^ n : Nat) := by
  refine ⟨fun hscale => ?_, h.scale_eq⟩
  rw [toRat, abs_mkRat, natAbs_coeff, hscale, div_lt_div_iff_of_pos_right (cast_pow_pos n)]
  exact_mod_cast x.size_lt

/-- A number with its sign turned is rounded to the other one with its sign turned.  The numbers may
differ in the sign of a zero. -/
theorem roundTo_neg (hn : n ≤ 28) (hcoeff : y.coeff = -x.coeff) (hscale : y.scale = x.scale) :
    y.roundTo n = (x.roundTo n).neg := by
  refine (tidy_roundTo y hn).eq (tidy_roundTo x hn).neg ?_
  have hunits : y.units = -x.units := by rw [units, units, hcoeff, hscale, Int.neg_mul]
  have hneg : (x.roundTo n).neg.units = -(x.roundTo n).units := by
    have hplaces : (x.roundTo n).neg.scale = (x.roundTo n).scale := by
      unfold Decimal.neg
      split <;> rfl
    rw [units, units, coeff_neg, hplaces, Int.neg_mul]
  rw [hneg, units_roundTo y hn, units_roundTo x hn, hunits, dropDigits_neg, Int.neg_mul]

/-- **All that is known of rounding**, to at most 28 fraction digits: the nearest value is found, a
half going away from zero, and it has a sign only if it is not zero; it has all the places if they
fit; rounding keeps the order, is done once for all, and does not mind the sign. -/
theorem roundTo_laws (hn : n ≤ 28) :
    (∀ x : Decimal, IsRounded n x.toRat (x.roundTo n).toRat) ∧
    (∀ x y : Decimal, x ≤ y → x.roundTo n ≤ y.roundTo n) ∧
    (∀ x : Decimal, (x.roundTo n).roundTo n = x.roundTo n) ∧
    (∀ x y : Decimal, y.coeff = -x.coeff → y.scale = x.scale →
      y.roundTo n = (x.roundTo n).neg) ∧
    (∀ x : Decimal, (x.roundTo n).isZero = true → (x.roundTo n).negative = false) ∧
    (∀ x : Decimal, (x.roundTo n).scale = n ↔
      |(x.roundTo n).toRat| < (coeffBound : Rat) / (10 ^ n : Nat)) :=
  ⟨fun x => isRounded_roundTo x hn, fun _ _ h => roundTo_mono h hn, fun x => roundTo_roundTo x hn,
    fun _ _ hcoeff hscale => roundTo_neg hn hcoeff hscale,
    fun x hzero => (tidy_roundTo x hn).not_negative hzero, fun x => (tidy_roundTo x hn).scale_eq_iff⟩

/-- To two places, five thousandths go away from zero on either side, and the largest number has no
place at all. -/
theorem roundTo_laws_hundredths :
    2 ≤ 28 ∧ (ofBits 5165 3 (by decide)).roundTo 2 = hundredths 517 ∧
      (ofBits 5165 3 (by decide)).neg.roundTo 2 = (hundredths 517).neg ∧
      IsRounded 2 (ofBits 5165 3 (by decide)).toRat (hundredths 517).toRat ∧
      ¬ |(largest.roundTo 2).toRat| < (coeffBound : Rat) / (10 ^ 2 : Nat) := by
  have hlaws := roundTo_laws (n := 2) (by decide)
  have hup : (ofBits 5165 3 (by decide)).roundTo 2 = hundredths 517 := by decide
  refine ⟨by decide, hup, ?_, ?_, ?_⟩
  · rw [← hup]
    exact hlaws.2.2.2.1 _ _ (by decide) (by decide)
  · rw [← hup]
    exact hlaws.1 _
  · rw [← hlaws.2.2.2.2.2 largest]
    decide

end Estimating.Decimal
