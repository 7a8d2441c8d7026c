/-
Operations round once, to the nearest decimal.

A result is the exact value with as many fraction digits as there is room for, a half going to the
even neighbour.  This determines its value, whichever way the operation takes to it, and it is all
that is needed to compare results: rounding keeps the order, and it moves a value of moderate size
by a tiny amount only.

* `Decimal.IsNearestEven` — the whole number nearest to a value, and
  `Decimal.isNearestEven_remainder`, `Decimal.isNearestEven_dropLast` — how the operations find it;
* `Decimal.RoundsAt`, `Decimal.Rounds` — a decimal is a value rounded once;
* `Decimal.Rounds.le` — **rounding keeps the order of values**, so a value is rounded to one value
  only (`Decimal.Rounds.toRat_eq`);
* `Decimal.Rounds.abs_sub_le`, `Decimal.Rounds.abs_sub_le_abs_sub` — how far a value is moved;
* `Decimal.rounds_mul`, `Decimal.rounds_add`, `Decimal.rounds_sub` — **products, sums and
  differences are rounded once**;
* `Decimal.AtMost.mul`, `Decimal.AtMost.add` — bounds on results by those on operands.
-/
import Estimating.Proofs.Decimal.Overflow
import Mathlib.Tactic.FieldSimp

set_option autoImplicit false

namespace Estimating.Decimal

/-! ### The nearest whole number -/

/-- `n` is the whole number nearest to `q`, and the even one where there are two. -/
structure IsNearestEven (q : Rat) (n : Int) : Prop where
  near : |q - n| ≤ 1 / 2
  even : |q - n| = 1 / 2 → n % 2 = 0

theorem isNearestEven_intCast (n : Int) : IsNearestEven n n := by
  constructor <;> norm_num

theorem IsNearestEven.neg {q : Rat} {n : Int} (h : IsNearestEven q n) :
    IsNearestEven (-q) (-n) := by
  have habs : |-q - ((-n : Int) : Rat)| = |q - n| := by
    rw [Int.cast_neg, ← abs_neg]
    congr 1
    ring
  exact ⟨habs ▸ h.near, fun heq => by have := h.even (habs ▸ heq); omega⟩

/-- Of two values, the larger one is not near a smaller whole number. -/
theorem IsNearestEven.le {p q : Rat} {n m : Int} (hp : IsNearestEven p n) (hq : IsNearestEven q m)
    (h : p ≤ q) : n ≤ m := by
  by_contra hlt
  have hnext : (m : Rat) + 1 ≤ n := by exact_mod_cast Int.not_le.1 hlt
  have hlow := (abs_le.1 hp.near).1
  have hhigh := (abs_le.1 hq.near).2
  -- then both values are the one halfway between the two
  have hn : (n : Rat) = m + 1 := by linarith
  have hodd : n = m + 1 := by exact_mod_cast hn
  have hn2 := hp.even (by rw [abs_eq (by norm_num)]; right; linarith)
  have hm2 := hq.even (by rw [abs_eq (by norm_num)]; left; linarith)
  omega

/-- No other whole number is nearer. -/
theorem IsNearestEven.abs_sub_le_int {q : Rat} {n : Int} (h : IsNearestEven q n) (m : Int) :
    |q - n| ≤ |q - m| := by
  rcases eq_or_ne n m with rfl | hne
  · exact le_rfl
  · have hone : (1 : Rat) ≤ |(n : Rat) - m| := by
      exact_mod_cast Int.one_le_abs (sub_ne_zero.2 hne)
    have htri := abs_sub_le (n : Rat) q m
    rw [abs_sub_comm (n : Rat) q] at htri
    have := h.near
    linarith

/-- A value is rounded up if it is past the middle, or in the middle above an odd number. -/
theorem isNearestEven_ite {k : Nat} {f : Rat} {up : Prop} [Decidable up] (h0 : 0 ≤ f) (h1 : f ≤ 1)
    (hup : up ↔ 1 / 2 < f ∨ f = 1 / 2 ∧ k % 2 = 1) :
    IsNearestEven (k + f) ((if up then k + 1 else k : Nat) : Int) := by
  split
  · next h =>
      have hlow : 1 / 2 ≤ f := by
        rcases hup.1 h with h | ⟨h, -⟩
        · exact le_of_lt h
        · exact ge_of_eq h
      have hsub : (k : Rat) + f - ((k + 1 : Nat) : Int) = f - 1 := by push_cast; ring
      refine ⟨?_, fun htie => ?_⟩
      · rw [hsub, abs_le]
        constructor <;> linarith
      · rw [hsub, abs_of_nonpos (by linarith)] at htie
        rcases hup.1 h with h | ⟨-, h⟩
        · linarith
        · omega
  · next h =>
      have hsub : (k : Rat) + f - ((k : Nat) : Int) = f := by push_cast; ring
      have hnot := mt hup.2 h
      simp only [not_or, not_and] at hnot
      refine ⟨?_, fun htie => ?_⟩
      · rw [hsub, abs_of_nonneg h0]
        exact le_of_not_gt hnot.1
      · rw [hsub, abs_of_nonneg h0] at htie
        have := hnot.2 htie
        omega

/-- A quotient is rounded by its remainder. -/
theorem isNearestEven_remainder (q : Nat) {r d : Nat} (hr : r < d) :
    IsNearestEven (q + (r : Rat) / d)
      ((if 2 * r > d ∨ 2 * r = d ∧ q % 2 = 1 then q + 1 else q : Nat) : Int) := by
  have hd : (0 : Rat) < d := Nat.cast_pos.2 (Nat.zero_lt_of_lt hr)
  refine isNearestEven_ite (by positivity) ?_ ?_
  · rw [div_le_one hd]
    exact_mod_cast hr.le
  · have hlt : 2 * r > d ↔ 1 / 2 < (r : Rat) / d := by
      rw [lt_div_iff₀ hd, div_mul_eq_mul_div, one_mul, div_lt_iff₀ two_pos, mul_comm]
      exact_mod_cast Iff.rfl
    have heq : 2 * r = d ↔ (r : Rat) / d = 1 / 2 := by
      rw [div_eq_div_iff hd.ne' two_ne_zero, one_mul, mul_comm]
      exact_mod_cast Iff.rfl
    rw [hlt, heq]

theorem isNearestEven_roundDiv (n : Nat) {d : Nat} (hd : 0 < d) :
    IsNearestEven ((n : Rat) / d) (roundDiv .toEven n d : Nat) := by
  have hd' : (d : Rat) ≠ 0 := Nat.cast_ne_zero.2 hd.ne'
  have hsplit : (n : Rat) / d = (n / d : Nat) + ((n % d : Nat) : Rat) / d := by
    rw [eq_comm, add_div_eq_mul_add_div _ _ hd', div_left_inj' hd', ← Nat.cast_mul,
      ← Nat.cast_add, Nat.div_add_mod']
  have hround : roundDiv .toEven n d =
      if 2 * (n % d) > d ∨ 2 * (n % d) = d ∧ n / d % 2 = 1 then n / d + 1 else n / d := by
    unfold roundDiv
    simp only [true_and]
    split_ifs <;> first | rfl | omega
  rw [hsplit, hround]
  exact isNearestEven_remainder _ (Nat.mod_lt n hd)

/-- Dropping digits rounds to the nearest number. -/
theorem isNearestEven_dropDigits (c : Int) (k : Nat) :
    IsNearestEven (mkRat c (10 ^ k)) (dropDigits .toEven c k) := by
  have hnat (n : Nat) : IsNearestEven (mkRat n (10 ^ k)) (dropDigits .toEven n k) := by
    rw [dropDigits_natCast, Rat.mkRat_eq_div]
    exact isNearestEven_roundDiv n (Nat.pow_pos (by decide))
  obtain ⟨n, rfl | rfl⟩ := c.eq_nat_or_neg
  · exact hnat n
  · rw [← Rat.neg_mkRat, dropDigits_neg]
    exact (hnat n).neg

/-- A quotient and what follows it are rounded by the last digit. -/
theorem isNearestEven_dropLast (q : Nat) {f : Rat} {sticky : Bool} (h0 : 0 ≤ f) (h1 : f < 1)
    (hsticky : sticky = true ↔ f ≠ 0) :
    IsNearestEven ((q + f) / 10) (dropLast q sticky : Nat) := by
  have hsplit : ((q : Rat) + f) / 10 = (q / 10 : Nat) + (((q % 10 : Nat) : Rat) + f) / 10 := by
    have hq : (q : Rat) = (q / 10 : Nat) * 10 + (q % 10 : Nat) := by
      exact_mod_cast (Nat.div_add_mod' q 10).symm
    rw [hq]
    ring
  have hdigit : ((q % 10 : Nat) : Rat) + 1 ≤ 10 := by
    exact_mod_cast Nat.mod_lt q (by decide : 0 < 10)
  rw [hsplit, dropLast]
  refine isNearestEven_ite (by positivity) (by linarith) ?_
  rcases Nat.lt_trichotomy (q % 10) 5 with hlt | heq | hgt
  · have hlow : ((q % 10 : Nat) : Rat) + 1 ≤ 5 := by exact_mod_cast hlt
    refine iff_of_false (by omega) ?_
    rintro (h | ⟨h, -⟩) <;> linarith
  · rw [heq, hsticky, Nat.cast_ofNat]
    constructor
    · rintro (h | ⟨-, hne | hodd⟩)
      · omega
      · have hpos := lt_of_le_of_ne h0 hne.symm
        exact .inl (by linarith)
      · rcases h0.eq_or_lt with rfl | hpos
        · exact .inr ⟨by norm_num, hodd⟩
        · exact .inl (by linarith)
    · rintro (h | ⟨-, hodd⟩)
      · exact .inr ⟨rfl, .inl (by rintro rfl; norm_num at h)⟩
      · exact .inr ⟨rfl, .inr hodd⟩
  · have hhigh : (6 : Rat) ≤ (q % 10 : Nat) := by exact_mod_cast hgt
    exact iff_of_true (.inl hgt) (.inl (by linarith))

/-! ### Rounding to the room there is -/

/-- `n / 10 ^ t` is the value `q` with as many fraction digits as there is room for. -/
structure RoundsAt (q : Rat) (n : Int) (t : Nat) : Prop where
  lt : n.natAbs < coeffBound
  scale_le : t ≤ 28
  nearest : IsNearestEven (q * (10 ^ t : Nat)) n
  full : t = 28 ∨ (coeffBound : Rat) - 1 / 2 ≤ |q| * (10 ^ (t + 1) : Nat)

/-- The decimal is a value rounded once. -/
def Rounds (q : Rat) (x : Decimal) : Prop :=
  ∃ n t, RoundsAt q n t ∧ x.toRat = mkRat n (10 ^ t)

variable {p q : Rat} {x y : Decimal}

theorem RoundsAt.neg {n : Int} {t : Nat} (h : RoundsAt q n t) : RoundsAt (-q) (-n) t := by
  refine ⟨by rw [Int.natAbs_neg]; exact h.lt, h.scale_le, ?_, by rw [abs_neg]; exact h.full⟩
  rw [neg_mul]
  exact h.nearest.neg

theorem Rounds.neg (h : Rounds q x) : Rounds (-q) x.neg := by
  obtain ⟨n, t, hround, hx⟩ := h
  exact ⟨-n, t, hround.neg, by rw [toRat_neg, hx, Rat.neg_mkRat]⟩

theorem Rounds.of_toRat_eq (h : Rounds q x) (hxy : x.toRat = y.toRat) : Rounds q y := by
  obtain ⟨n, t, hround, hx⟩ := h
  exact ⟨n, t, hround, hxy ▸ hx⟩

/-- A value that a decimal has is not rounded. -/
theorem rounds_toRat (x : Decimal) : Rounds x.toRat x := by
  -- written with all the zeros that there is room for
  have htidy := tidy_roundTo x (le_refl 28)
  have hvalue : x.toRat = (x.roundTo 28).toRat := by
    rw [toRat_eq_iff, units_roundTo x (le_refl 28), Nat.sub_self, dropDigits_zero, Int.pow_zero,
      Int.mul_one]
  generalize x.roundTo 28 = y at htidy hvalue
  rw [hvalue]
  have hwhole : y.toRat * (10 ^ y.scale : Nat) = y.coeff := by
    rw [toRat, Rat.mkRat_eq_div, div_mul_cancel₀ _ (cast_pow_pos _).ne']
  refine ⟨y.coeff, y.scale, ⟨y.coeff_lt, y.scale_le, hwhole ▸ isNearestEven_intCast _, ?_⟩, hvalue⟩
  refine htidy.full.imp_right fun hfull => ?_
  have hten : |y.toRat| * (10 ^ (y.scale + 1) : Nat) = (y.size * 10 : Nat) := by
    rw [toRat, abs_mkRat, natAbs_coeff, Nat.pow_succ]
    push_cast
    field_simp
  have hbound : (coeffBound : Rat) ≤ (y.size * 10 : Nat) := by exact_mod_cast hfull
  linarith

variable {n m : Int} {t u : Nat}

/-- What is rounded is below the bound by more than half a unit. -/
theorem RoundsAt.abs_mul_lt (h : RoundsAt q n t) :
    |q| * (10 ^ t : Nat) < (coeffBound : Rat) - 1 / 2 := by
  have hnonneg {q : Rat} {n : Int} (h : RoundsAt q n t) :
      q * (10 ^ t : Nat) < (coeffBound : Rat) - 1 / 2 := by
    by_contra hle
    have hbound : IsNearestEven ((coeffBound : Rat) - 1 / 2) coeffBound := by
      refine ⟨?_, fun _ => by decide⟩
      rw [Int.cast_natCast, sub_sub_cancel_left, abs_neg, abs_of_pos (by norm_num)]
    have hlarge := hbound.le h.nearest (le_of_not_gt hle)
    have := h.lt
    omega
  rcases abs_choice q with hq | hq
  · rw [hq]
    exact hnonneg h
  · rw [hq]
    exact hnonneg h.neg

/-- A larger value is rounded to fewer places. -/
theorem RoundsAt.scale_anti (hp : RoundsAt p n t) (hq : RoundsAt q m u) (h : |p| ≤ |q|) :
    u ≤ t := by
  by_contra hlt
  rcases hp.full with rfl | hfull
  · have := hq.scale_le
    omega
  have hpow : ((10 ^ (t + 1) : Nat) : Rat) ≤ (10 ^ u : Nat) := by
    exact_mod_cast Nat.pow_le_pow_right (by decide : 0 < 10) (Nat.not_le.1 hlt)
  have hle := mul_le_mul h hpow (cast_pow_pos _).le (abs_nonneg q)
  have := hq.abs_mul_lt
  linarith

/-- With room for no further place, all digits are in use. -/
theorem RoundsAt.coeffBound_le (h : RoundsAt q n t) (h0 : 0 ≤ q) (ht : t ≠ 28) :
    (coeffBound : Int) ≤ n * 10 := by
  obtain ⟨c, hc⟩ : ∃ c : Int, c * 10 = coeffBound + 4 := ⟨(coeffBound + 4) / 10, by decide⟩
  have hcast : (c : Rat) * 10 = coeffBound + 4 := by exact_mod_cast hc
  have htenth : IsNearestEven (((coeffBound : Rat) - 1 / 2) / 10) c := by
    have hsub : ((coeffBound : Rat) - 1 / 2) / 10 - c = -(9 / 20) := by linarith
    constructor <;> rw [hsub] <;> norm_num
  have hfull := h.full.resolve_left ht
  rw [abs_of_nonneg h0, Nat.pow_succ, Nat.cast_mul, ← mul_assoc, Nat.cast_ofNat] at hfull
  have hle := htenth.le h.nearest (by linarith)
  omega

/-- Rounding keeps the order of values that are not negative. -/
theorem RoundsAt.le (hp : RoundsAt p n t) (hq : RoundsAt q m u) (h0 : 0 ≤ p) (hpq : p ≤ q) :
    mkRat n (10 ^ t) ≤ mkRat m (10 ^ u) := by
  have hplaces := hp.scale_anti hq (by rwa [abs_of_nonneg h0, abs_of_nonneg (h0.trans hpq)])
  rw [Rat.mkRat_eq_div, Rat.mkRat_eq_div, div_le_div_iff₀ (cast_pow_pos t) (cast_pow_pos u)]
  rcases hplaces.eq_or_lt with rfl | hlt
  · have hle := hp.nearest.le hq.nearest (mul_le_mul_of_nonneg_right hpq (cast_pow_pos u).le)
    exact mul_le_mul_of_nonneg_right (Int.cast_le.2 hle) (cast_pow_pos u).le
  · -- with a place less, the number is above all that have one more
    have hscale := hp.scale_le
    have hfull := hq.coeffBound_le (h0.trans hpq) (by omega)
    have hbound := hp.lt
    have hsize : n ≤ m * 10 := by omega
    have hpow : (10 : Int) ^ (u + 1) ≤ 10 ^ t := pow_le_pow_right₀ (by decide) hlt
    have hm : 0 ≤ m := by
      have : (0 : Int) < coeffBound := by decide
      omega
    have hle : n * 10 ^ u ≤ m * 10 ^ t := by
      calc n * 10 ^ u
        _ ≤ m * 10 * 10 ^ u := Int.mul_le_mul_of_nonneg_right hsize (pow_pos u).le
        _ = m * 10 ^ (u + 1) := by ring
        _ ≤ m * 10 ^ t := Int.mul_le_mul_of_nonneg_left hpow hm
    exact_mod_cast hle

theorem rounds_zero : Rounds 0 .zero := by
  have := rounds_toRat zero
  rwa [toRat_zero] at this

/-- **Rounding keeps the order of values.** -/
theorem Rounds.le (hx : Rounds p x) (hy : Rounds q y) (h : p ≤ q) : x ≤ y := by
  have hnonneg {p q : Rat} {x y : Decimal} (hx : Rounds p x) (hy : Rounds q y) (h0 : 0 ≤ p)
      (h : p ≤ q) : x ≤ y := by
    obtain ⟨n, t, hp, hx⟩ := hx
    obtain ⟨m, u, hq, hy⟩ := hy
    rw [le_iff_toRat, hx, hy]
    exact hp.le hq h0 h
  have hneg {x y : Decimal} (h : y.neg ≤ x.neg) : x ≤ y := by
    rw [le_iff_toRat, toRat_neg, toRat_neg, neg_le_neg_iff] at h
    exact le_iff_toRat.2 h
  rcases lt_or_ge p 0 with hp | hp
  · rcases lt_or_ge q 0 with hq | hq
    · exact hneg (hnonneg hy.neg hx.neg (by linarith) (by linarith))
    · have hx0 : x ≤ zero := hneg (hnonneg rounds_zero hx.neg le_rfl (by linarith))
      have h0y : zero ≤ y := hnonneg rounds_zero hy le_rfl hq
      exact le_iff_toRat.2 ((le_iff_toRat.1 hx0).trans (le_iff_toRat.1 h0y))
  · exact hnonneg hx hy hp h

/-- A value is rounded to one value only. -/
theorem Rounds.toRat_eq (hx : Rounds q x) (hy : Rounds q y) : x.toRat = y.toRat :=
  le_antisymm (le_iff_toRat.1 (hx.le hy le_rfl)) (le_iff_toRat.1 (hy.le hx le_rfl))

/-- What is rounded fits. -/
theorem Rounds.fits (h : Rounds q x) : Fits q := by
  obtain ⟨n, t, hround, -⟩ := h
  have hpow : (1 : Rat) ≤ (10 ^ t : Nat) := by exact_mod_cast Nat.one_le_pow t 10 (by decide)
  exact (le_mul_of_one_le_right (abs_nonneg q) hpow).trans_lt hround.abs_mul_lt

/-- A rounded value is at most what the value is at most. -/
theorem Rounds.atMost {b : Nat} (h : Rounds q x) (hq : |q| ≤ b) : x.AtMost b := by
  rcases Nat.lt_or_ge b coeffBound with hb | hb
  · obtain ⟨w, hw⟩ := Option.isSome_iff_exists.1
      (show (ofParts? b 0).isSome from
        ofParts?_isSome.2 ⟨(Int.natAbs_natCast b).symm ▸ hb, Nat.zero_le _⟩)
    have hvalue : w.toRat = b := by
      rw [toRat_of_parts hw, Nat.pow_zero, Rat.mkRat_one, Int.cast_natCast]
    have hwhole := rounds_toRat w
    rw [hvalue] at hwhole
    have hlow := le_iff_toRat.1 (hwhole.neg.le h (abs_le.1 hq).1)
    have hhigh := le_iff_toRat.1 (h.le hwhole (abs_le.1 hq).2)
    rw [toRat_neg, hvalue] at hlow
    rw [hvalue] at hhigh
    exact atMost_iff.2 (abs_le.2 ⟨hlow, hhigh⟩)
  · exact x.atMost_coeffBound.mono hb

/-- How far a value is from a number of `t` fraction digits. -/
theorem abs_mkRat_sub (q : Rat) (n : Int) (t : Nat) :
    |mkRat n (10 ^ t) - q| = |q * (10 ^ t : Nat) - n| / (10 ^ t : Nat) := by
  have hpos := cast_pow_pos t
  rw [Rat.mkRat_eq_div, abs_sub_comm, ← abs_of_pos hpos, ← abs_div, abs_of_pos hpos, sub_div,
    mul_div_cancel_right₀ _ hpos.ne']

/-- A value of moderate size is rounded by at most half a unit of a place that there is room for. -/
theorem Rounds.abs_sub_le (h : Rounds q x) (ht : t ≤ 28)
    (hq : |q| * (10 ^ t : Nat) < (coeffBound : Rat) - 1 / 2) :
    |x.toRat - q| ≤ 1 / 2 / (10 ^ t : Nat) := by
  obtain ⟨n, u, hround, hx⟩ := h
  have htu : t ≤ u := by
    by_contra hlt
    have hfull := hround.full.resolve_left (by omega)
    have hpow : ((10 ^ (u + 1) : Nat) : Rat) ≤ (10 ^ t : Nat) := by
      exact_mod_cast Nat.pow_le_pow_right (by decide : 0 < 10) (Nat.not_le.1 hlt)
    have := mul_le_mul_of_nonneg_left hpow (abs_nonneg q)
    linarith
  have hpow : ((10 ^ t : Nat) : Rat) ≤ (10 ^ u : Nat) := by
    exact_mod_cast Nat.pow_le_pow_right (by decide : 0 < 10) htu
  rw [hx, abs_mkRat_sub]
  exact div_le_div₀ (by norm_num) hround.nearest.near (cast_pow_pos t) hpow

/-- No decimal of at least its size is nearer to a value than the one that it is rounded to. -/
theorem Rounds.abs_sub_le_abs_sub (h : Rounds q x) (hq : |q| ≤ |y.toRat|) :
    |x.toRat - q| ≤ |y.toRat - q| := by
  obtain ⟨n, t, hround, hx⟩ := h
  obtain ⟨m, u, hround', hy⟩ := rounds_toRat y
  have hut := hround.scale_anti hround' hq
  have hy' : y.toRat = mkRat (m * (10 ^ (t - u) : Nat)) (10 ^ t) := by
    rw [hy, ← Nat.add_sub_cancel' hut, Nat.pow_add, Nat.add_sub_cancel_left,
      Rat.mkRat_mul_right (Nat.ne_of_gt (Nat.pow_pos (by decide)))]
  rw [hx, hy', abs_mkRat_sub, abs_mkRat_sub]
  exact div_le_div_of_nonneg_right (hround.nearest.abs_sub_le_int _) (cast_pow_pos t).le

/-! ### Sums, differences and products -/

theorem mkRat_mul_pow {c : Int} {s k : Nat} (h : k ≤ s) :
    mkRat c (10 ^ s) * (10 ^ (s - k) : Nat) = mkRat c (10 ^ k) := by
  have hpow : 10 ^ s = 10 ^ k * 10 ^ (s - k) := by rw [← Nat.pow_add, Nat.add_sub_cancel' h]
  rw [Rat.mkRat_eq_div, Rat.mkRat_eq_div, hpow, Nat.cast_mul, ← div_div,
    div_mul_cancel₀ _ (cast_pow_pos _).ne']

/-- A coefficient without its last digits is near the value. -/
theorem rounds_of_shorten {c : Int} {s k : Nat} (h : shorten? c s k = some x)
    (hfull : s - k = 28 ∨
      (coeffBound : Rat) - 1 / 2 ≤ |mkRat c (10 ^ s)| * (10 ^ (s - k + 1) : Nat)) :
    Rounds (mkRat c (10 ^ s)) x := by
  unfold shorten? at h
  split at h
  · next hk =>
      obtain ⟨hcoeff, hscale⟩ := ofParts?_eq_some h
      refine ⟨_, _, ⟨hcoeff ▸ x.coeff_lt, hscale ▸ x.scale_le, ?_, hfull⟩, toRat_of_parts h⟩
      rw [mkRat_mul_pow hk]
      exact isNearestEven_dropDigits c k
  · cases h

/-- What is fitted is rounded once. -/
theorem rounds_of_fit {c : Int} {s : Nat} (h : fit c s = some x) :
    Rounds (mkRat c (10 ^ s)) x := by
  have hmax : maxScale = 28 := rfl
  have hdigits {k : Nat} (hk : k ≤ s) :
      |mkRat c (10 ^ s)| * (10 ^ (s - k) : Nat) = (c.natAbs : Rat) / (10 ^ k : Nat) := by
    rw [← abs_mkRat, ← mkRat_mul_pow hk, abs_mul, abs_of_pos (cast_pow_pos _)]
  have hscale {k : Nat} (hk : shorten? c s k = some x) : k ≤ s ∧ s ≤ k + 28 := by
    have hsome := shorten?_isSome.1 (Option.isSome_of_eq_some hk)
    exact ⟨hsome.1, hsome.2.1⟩
  unfold fit at h
  generalize hk : max (s - maxScale) (excessDigits c.natAbs) = k at h
  rcases Option.or_eq_some_iff.1 h with h | ⟨hnone, h⟩
  · obtain ⟨hks, hsk⟩ := hscale h
    rcases Nat.eq_zero_or_pos k with rfl | hpos
    · -- no digit is dropped
      have hvalue : x.toRat = mkRat c (10 ^ s) := by
        rw [shorten?, if_pos hks, dropDigits_zero, Nat.sub_zero] at h
        exact toRat_of_parts h
      exact hvalue ▸ rounds_toRat x
    · refine rounds_of_shorten h (or_iff_not_imp_left.2 fun hne => ?_)
      have hlarge : coeffBound * 10 ^ (k - 1) ≤ c.natAbs := by
        rw [← Nat.not_lt, ← excessDigits_le_iff]
        omega
      have hplaces : s - k + 1 = s - (k - 1) := by omega
      have hbound : (coeffBound : Rat) ≤ (c.natAbs : Rat) / (10 ^ (k - 1) : Nat) := by
        rw [le_div_iff₀ (cast_pow_pos _)]
        exact_mod_cast hlarge
      rw [hplaces, hdigits (by omega)]
      linarith
  · -- rounding has brought the coefficient to the bound
    obtain ⟨hks, hsk⟩ := hscale h
    refine rounds_of_shorten h (.inr ?_)
    have hlarge : (2 * coeffBound - 1) * 10 ^ k ≤ 2 * c.natAbs := by
      by_contra hlt
      have hsome : (shorten? c s k).isSome :=
        shorten?_isSome.2 ⟨by omega, by omega, Nat.not_le.1 hlt⟩
      rw [hnone] at hsome
      cases hsome
    have hplaces : s - (k + 1) + 1 = s - k := by omega
    have hcast : ((2 * coeffBound - 1 : Nat) : Rat) = 2 * coeffBound - 1 := by
      rw [Nat.cast_sub (by decide)]
      push_cast
      rfl
    rw [hplaces, hdigits (by omega), le_div_iff₀ (cast_pow_pos _)]
    have hlarge' : ((2 * coeffBound - 1 : Nat) : Rat) * (10 ^ k : Nat) ≤ 2 * c.natAbs := by
      exact_mod_cast hlarge
    rw [hcast] at hlarge'
    linarith

variable {a b : Decimal}

/-- **A product is rounded once.** -/
theorem rounds_mul (h : a.mul b = some x) : Rounds (a.toRat * b.toRat) x := by
  unfold mul at h
  split at h
  · next hzero =>
      cases h
      have hproduct : a.toRat * b.toRat = 0 := by
        rcases Bool.or_eq_true_iff.1 hzero with ha | hb
        · rw [toRat_of_isZero ha, zero_mul]
        · rw [toRat_of_isZero hb, mul_zero]
      exact hproduct ▸ rounds_zero
  · have hvalue : a.toRat * b.toRat = mkRat (a.coeff * b.coeff) (10 ^ (a.scale + b.scale)) := by
      rw [toRat, toRat, Rat.mkRat_mul_mkRat, Nat.pow_add]
    exact hvalue ▸ rounds_of_fit h

/-- **A sum is rounded once.** -/
theorem rounds_add (h : a.add b = some x) : Rounds (a.toRat + b.toRat) x := by
  unfold add at h
  split at h
  · next ha =>
      cases h
      rw [toRat_of_isZero ha, zero_add]
      exact rounds_toRat _
  · split at h
    · next hb =>
        cases h
        rw [toRat_of_isZero hb, add_zero]
        exact rounds_toRat _
    · generalize hs : max a.scale b.scale = s at h
      have hvalue : a.toRat + b.toRat =
          mkRat (a.coeff * 10 ^ (s - a.scale) + b.coeff * 10 ^ (s - b.scale)) (10 ^ s) := by
        rw [toRat_eq_mkRat (by omega : a.scale ≤ s), toRat_eq_mkRat (by omega : b.scale ≤ s),
          Rat.mkRat_add_mkRat_of_den _ _ (Nat.ne_of_gt (Nat.pow_pos (by decide)))]
      exact hvalue ▸ rounds_of_fit h

/-- **A difference is rounded once.** -/
theorem rounds_sub (h : a.sub b = some x) : Rounds (a.toRat - b.toRat) x := by
  rw [sub_eq_add_neg, ← toRat_neg]
  exact rounds_add h

theorem AtMost.mul {m n : Nat} (ha : a.AtMost m) (hb : b.AtMost n) (h : a.mul b = some x) :
    x.AtMost (m * n) := by
  refine (rounds_mul h).atMost ?_
  rw [abs_mul, Nat.cast_mul]
  exact mul_le_mul (atMost_iff.1 ha) (atMost_iff.1 hb) (abs_nonneg _) (Nat.cast_nonneg _)

theorem AtMost.add {m n : Nat} (ha : a.AtMost m) (hb : b.AtMost n) (h : a.add b = some x) :
    x.AtMost (m + n) := by
  refine (rounds_add h).atMost ?_
  rw [Nat.cast_add]
  exact (abs_add_le _ _).trans (add_le_add (atMost_iff.1 ha) (atMost_iff.1 hb))

end Estimating.Decimal
