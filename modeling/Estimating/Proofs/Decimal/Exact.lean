/-
Arithmetic that loses nothing.

An operation rounds only where it has to: a sum, a product or a quotient that some decimal has as
its value is computed as that value, whatever the scales of the operands are.

* `Decimal.Representable` — a value that a decimal has;
* `Decimal.nearest` — a value rounded to a number of fraction digits, and `Decimal.toRat_roundTo`,
  which says that rounding a decimal is rounding its value;
* `Decimal.HasPlaces` — a value with at most so many fraction digits, which is not rounded;
* `Decimal.toRat_floor`, `Decimal.toRat_ceil`, `Decimal.toRat_smaller`, `Decimal.toRat_larger` — the
  values of whole neighbours and of selections;
* `Decimal.exists_mul_eq`, `Decimal.exists_add_eq`, `Decimal.exists_sub_eq`,
  `Decimal.exists_div_eq` — **products, sums, differences and quotients that are representable are
  exact**.
-/
import Estimating.Proofs.Decimal.Quotients
import Mathlib.Algebra.Order.Round
import Mathlib.Data.Rat.Floor

set_option autoImplicit false

namespace Estimating.Decimal

/-! ### Values -/

/-- A value that a decimal has: its digits are below the bound, and not too many stand after the
point. -/
def Representable (q : Rat) : Prop :=
  ∃ (c : Int) (s : Nat), c.natAbs < coeffBound ∧ s ≤ maxScale ∧ q = mkRat c (10 ^ s)

theorem representable_toRat (x : Decimal) : Representable x.toRat :=
  ⟨x.coeff, x.scale, x.coeff_lt, x.scale_le, rfl⟩

theorem Representable.exists_toRat {q : Rat} (h : Representable q) :
    ∃ x : Decimal, x.toRat = q := by
  obtain ⟨c, s, hc, hs, rfl⟩ := h
  obtain ⟨x, hx⟩ := Option.isSome_iff_exists.1 (ofParts?_isSome.2 ⟨hc, hs⟩)
  exact ⟨x, toRat_of_parts hx⟩

theorem Representable.fits {q : Rat} (h : Representable q) : Fits q := by
  obtain ⟨x, rfl⟩ := h.exists_toRat
  exact x.fits_toRat

/-! ### Rounded values -/

/-- The whole number nearest to a value, a half going away from zero. -/
def nearestInt (q : Rat) : Int := if 0 ≤ q then ⌊q + 1 / 2⌋ else ⌈q - 1 / 2⌉

/-- The value nearest to another one among those with `n` fraction digits, a half going away from
zero. -/
def nearest (n : Nat) (q : Rat) : Rat := nearestInt (q * (10 ^ n : Nat)) / (10 ^ n : Nat)

theorem nearestInt_of_nonneg {q : Rat} (h : 0 ≤ q) : nearestInt q = ⌊q + 1 / 2⌋ := if_pos h

theorem nearestInt_neg (q : Rat) : nearestInt (-q) = -nearestInt q := by
  have hceil (x : Rat) : ⌈-x - 1 / 2⌉ = -⌊x + 1 / 2⌋ := by
    rw [← Int.ceil_neg]
    congr 1
    ring
  rcases lt_trichotomy q 0 with hneg | rfl | hpos
  · rw [nearestInt, if_pos (by linarith), nearestInt, if_neg (by linarith), ← Int.floor_neg]
    congr 1
    ring
  · norm_num [nearestInt]
  · rw [nearestInt, if_neg (by linarith), nearestInt, if_pos (by linarith), hceil]

/-- Dropping digits rounds the value. -/
theorem nearestInt_mkRat (c : Int) (k : Nat) :
    nearestInt (mkRat c (10 ^ k)) = dropDigits .awayFromZero c k := by
  have hnat (n : Nat) : nearestInt (mkRat n (10 ^ k)) = dropDigits .awayFromZero n k := by
    have hpos : 0 < 10 ^ k := Nat.pow_pos (by decide)
    have hne : ((10 ^ k : Nat) : Rat) ≠ 0 := Nat.cast_ne_zero.2 (Nat.ne_of_gt hpos)
    have hsum : mkRat n (10 ^ k) + 1 / 2 = ((2 * n + 10 ^ k : Nat) : Rat) / (2 * 10 ^ k : Nat) := by
      rw [Rat.mkRat_eq_div, Int.cast_natCast, Nat.cast_add, Nat.cast_mul, Nat.cast_mul]
      field_simp
      ring
    have hnonneg : 0 ≤ mkRat n (10 ^ k) := by
      rw [Rat.mkRat_eq_div]
      positivity
    rw [nearestInt_of_nonneg hnonneg, hsum, dropDigits_natCast, roundDiv_awayFromZero n hpos,
      Rat.floor_natCast_div_natCast]
    rfl
  obtain ⟨n, rfl | rfl⟩ := c.eq_nat_or_neg
  · exact hnat n
  · rw [← Rat.neg_mkRat, nearestInt_neg, hnat, dropDigits_neg]

/-- Rounding a decimal is rounding its value. -/
theorem toRat_roundTo (x : Decimal) {n : Nat} (hn : n ≤ 28) :
    (x.roundTo n).toRat = nearest n x.toRat := by
  have hne (k : Nat) : ((10 ^ k : Nat) : Rat) ≠ 0 :=
    Nat.cast_ne_zero.2 (Nat.ne_of_gt (Nat.pow_pos (by decide)))
  have hpow : 10 ^ 28 = 10 ^ (28 - n) * 10 ^ n := by
    rw [← Nat.pow_add, Nat.sub_add_cancel hn]
  have hscaled : x.toRat * (10 ^ n : Nat) = mkRat x.units (10 ^ (28 - n)) := by
    rw [toRat_eq_units, hpow, Rat.mkRat_eq_div, Rat.mkRat_eq_div, Nat.cast_mul]
    field_simp [hne]
  rw [nearest, hscaled, nearestInt_mkRat, toRat_eq_units, units_roundTo x hn, hpow,
    Rat.mkRat_eq_div, Int.cast_mul, Nat.cast_mul]
  have hcast : ((10 ^ (28 - n) : Int) : Rat) = (10 ^ (28 - n) : Nat) := by
    norm_cast
  rw [hcast]
  field_simp [hne]

theorem toRat_roundMoney (x : Decimal) : x.roundMoney.toRat = nearest 2 x.toRat :=
  toRat_roundTo x (by decide)

/-! ### Values with few fraction digits -/

/-- A value with at most `n` fraction digits. -/
def HasPlaces (n : Nat) (q : Rat) : Prop := ∃ c : Int, q = mkRat c (10 ^ n)

theorem HasPlaces.zero (n : Nat) : HasPlaces n 0 := ⟨0, (Rat.zero_mkRat _).symm⟩

theorem HasPlaces.add {n : Nat} {p q : Rat} (hp : HasPlaces n p) (hq : HasPlaces n q) :
    HasPlaces n (p + q) := by
  obtain ⟨c, rfl⟩ := hp
  obtain ⟨c', rfl⟩ := hq
  exact ⟨c + c', Rat.mkRat_add_mkRat_of_den _ _ (Nat.ne_of_gt (Nat.pow_pos (by decide)))⟩

theorem HasPlaces.sum {n : Nat} {qs : List Rat} (h : ∀ q ∈ qs, HasPlaces n q) :
    HasPlaces n qs.sum := by
  induction qs with
  | nil => exact .zero n
  | cons q qs ih =>
      rw [List.sum_cons]
      exact (h q List.mem_cons_self).add (ih fun q hq => h q (List.mem_cons_of_mem _ hq))

/-- What has few fraction digits is not rounded. -/
theorem HasPlaces.nearest_eq {n : Nat} {q : Rat} (h : HasPlaces n q) : nearest n q = q := by
  obtain ⟨c, rfl⟩ := h
  have hne : ((10 ^ n : Nat) : Rat) ≠ 0 :=
    Nat.cast_ne_zero.2 (Nat.ne_of_gt (Nat.pow_pos (by decide)))
  have hwhole : nearestInt (mkRat c (10 ^ n) * (10 ^ n : Nat)) = c := by
    have hc := nearestInt_mkRat c 0
    rw [dropDigits_zero, Nat.pow_zero, Rat.mkRat_one] at hc
    rw [Rat.mkRat_eq_div, div_mul_cancel₀ _ hne, hc]
  rw [nearest, hwhole, Rat.mkRat_eq_div]

theorem Tidy.hasPlaces {n : Nat} {x : Decimal} (h : Tidy n x) : HasPlaces n x.toRat :=
  ⟨_, toRat_eq_mkRat h.scale_le⟩

/-- A rounded decimal of moderate size is written with all of its places. -/
theorem Tidy.scale_eq {n : Nat} {x : Decimal} (h : Tidy n x)
    (hx : |x.toRat| < (coeffBound : Rat) / (10 ^ n : Nat)) : x.scale = n := by
  rcases h.full with hfull | hfull
  · exact hfull
  by_contra hne
  have hpos (k : Nat) : (0 : Rat) < (10 ^ k : Nat) := Nat.cast_pos.2 (Nat.pow_pos (by decide))
  have hlong : x.size * 10 ^ n < coeffBound * 10 ^ x.scale := by
    rw [toRat, abs_mkRat, natAbs_coeff, div_lt_div_iff₀ (hpos _) (hpos _)] at hx
    exact_mod_cast hx
  have hpow : 10 ^ x.scale * 10 ≤ 10 ^ n := by
    rw [← Nat.pow_succ]
    have hle := h.scale_le
    exact Nat.pow_le_pow_right (by decide) (by omega)
  have hmul : coeffBound * 10 ^ x.scale ≤ x.size * 10 ^ n := by
    calc coeffBound * 10 ^ x.scale
      _ ≤ x.size * 10 * 10 ^ x.scale := Nat.mul_le_mul_right _ hfull
      _ = x.size * (10 ^ x.scale * 10) := by ring
      _ ≤ x.size * 10 ^ n := Nat.mul_le_mul_left _ hpow
  exact absurd hlong (Nat.not_lt.2 hmul)

/-! ### Whole neighbours and selections -/

theorem toRat_floor (x : Decimal) : x.floor.toRat = ⌊x.toRat⌋ := by
  have hvalue : x.toRat = (x.coeff : Rat) / (10 ^ x.scale : Nat) := by rw [toRat, Rat.mkRat_eq_div]
  rw [hvalue, Rat.floor_intCast_div_natCast, floor, toRat, coeff_ofCoeff, scale_ofCoeff,
    Nat.pow_zero, Rat.mkRat_one]

theorem toRat_ceil (x : Decimal) : x.ceil.toRat = ⌈x.toRat⌉ := by
  rw [ceil, toRat_neg, toRat_floor, toRat_neg, Int.floor_neg, Int.cast_neg, neg_neg]

theorem toRat_smaller (x y : Decimal) : (x.smaller y).toRat = min x.toRat y.toRat := by
  unfold smaller
  split
  · next h => exact (min_eq_right (le_of_lt (lt_iff_toRat.1 h))).symm
  · next h => exact (min_eq_left (le_iff_toRat.1 (not_lt.1 h))).symm

theorem toRat_larger (x y : Decimal) : (x.larger y).toRat = max x.toRat y.toRat := by
  unfold larger
  split
  · next h => exact (max_eq_right (le_of_lt (lt_iff_toRat.1 h))).symm
  · next h => exact (max_eq_left (le_iff_toRat.1 (not_lt.1 h))).symm

theorem toRat_two : two.toRat = 2 := by decide +kernel

/-! ### Exact operations -/

/-- A value that is representable has so many zeros at the end of its digits that it fits without
them. -/
theorem exists_zeros {c : Int} {s : Nat} (h : Representable (mkRat c (10 ^ s))) :
    ∃ e ≤ s, s ≤ e + maxScale ∧ c.natAbs < coeffBound * 10 ^ e ∧ (10 : Int) ^ e ∣ c := by
  obtain ⟨m, t, hm, ht, heq⟩ := h
  have hne (k : Nat) : 10 ^ k ≠ 0 := Nat.ne_of_gt (Nat.pow_pos (by decide))
  have hcross : c * 10 ^ t = m * 10 ^ s := by
    have hcross := (Rat.mkRat_eq_iff (hne s) (hne t)).1 heq
    push_cast at hcross
    exact hcross
  rcases Nat.le_total t s with hts | hst
  · have hc : c = m * 10 ^ (s - t) := by
      refine Int.eq_of_mul_eq_mul_right (Int.ne_of_gt (pow_pos t)) ?_
      rw [hcross, Int.mul_assoc, ← Int.pow_add, Nat.sub_add_cancel hts]
    refine ⟨s - t, Nat.sub_le _ _, by omega, ?_, Dvd.intro_left m hc.symm⟩
    rw [hc, Int.natAbs_mul, Int.natAbs_pow]
    exact (Nat.mul_lt_mul_right (Nat.pow_pos (by decide))).2 hm
  · -- more digits stand after the point there, so there are fewer digits here
    have hc : c * 10 ^ (t - s) = m := by
      refine Int.eq_of_mul_eq_mul_right (Int.ne_of_gt (pow_pos s)) ?_
      rw [← hcross, Int.mul_assoc, ← Int.pow_add, Nat.sub_add_cancel hst]
    refine ⟨0, Nat.zero_le _, by omega, ?_, one_dvd c⟩
    rw [Nat.pow_zero, Nat.mul_one]
    refine Nat.lt_of_le_of_lt ?_ hm
    rw [← hc, Int.natAbs_mul]
    exact Nat.le_mul_of_pos_right _ (Int.natAbs_pos.2 (Int.ne_of_gt (pow_pos _)))

/-- A value that is representable fits, and it is not rounded. -/
theorem Representable.eq_of_rounds {q : Rat} {x : Decimal} (hq : Representable q)
    (h : Rounds q x) : x.toRat = q := by
  obtain ⟨y, rfl⟩ := hq.exists_toRat
  exact h.toRat_eq (rounds_toRat y)

variable {a b : Decimal}

/-- **A product that is representable is exact.** -/
theorem exists_mul_eq (h : Representable (a.toRat * b.toRat)) :
    ∃ x, a.mul b = some x ∧ x.toRat = a.toRat * b.toRat := by
  obtain ⟨x, hx⟩ := Option.isSome_iff_exists.1 (mul_isSome_iff.2 h.fits)
  exact ⟨x, hx, h.eq_of_rounds (rounds_mul hx)⟩

/-- **A sum that is representable is exact.** -/
theorem exists_add_eq (h : Representable (a.toRat + b.toRat)) :
    ∃ x, a.add b = some x ∧ x.toRat = a.toRat + b.toRat := by
  obtain ⟨x, hx⟩ := Option.isSome_iff_exists.1 (add_isSome_iff.2 h.fits)
  exact ⟨x, hx, h.eq_of_rounds (rounds_add hx)⟩

/-- **A difference that is representable is exact.** -/
theorem exists_sub_eq (h : Representable (a.toRat - b.toRat)) :
    ∃ x, a.sub b = some x ∧ x.toRat = a.toRat - b.toRat := by
  rw [sub_eq_add_neg, ← toRat_neg] at h ⊢
  exact exists_add_eq h

/-- **A quotient that is representable is exact.** -/
theorem exists_div_eq (hb : b.toRat ≠ 0) (h : Representable (a.toRat / b.toRat)) :
    ∃ x, a.div b = some x ∧ x.toRat = a.toRat / b.toRat := by
  obtain ⟨x, hx⟩ := Option.isSome_iff_exists.1 ((div_isSome_iff hb).2 h.fits)
  exact ⟨x, hx, h.eq_of_rounds (rounds_div hb hx)⟩

end Estimating.Decimal
