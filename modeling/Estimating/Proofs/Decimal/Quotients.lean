/-
Quotients.

Long division keeps the quotient and the remainder that it has come to; together they are the exact
value.  It ends where nothing remains or where there is no room for a further digit, and there it
rounds.  So it finds the digits of the value rounded once, or the value is too large.

* `Decimal.Finds` — what division is to find;
* `Decimal.Stripped` — a quotient without some zeros at its end, as `Decimal.tidyQuotient` leaves
  it;
* `Decimal.DividesTo` — how far long division has come, and `Decimal.finds_longDivision` — what it
  finds from there;
* `Decimal.rounds_div` — **a quotient is rounded once**, and `Decimal.div_isSome_iff` — **when it is
  too large**;
* `Decimal.exists_hundredth` — **there is always a hundredth of a number**, and
  `Decimal.exists_one_add_hundredth` — always one and a hundredth of it.
-/
import Estimating.Proofs.Decimal.Nearest

set_option autoImplicit false

namespace Estimating.Decimal

/-! ### What division is to find -/

variable {t : Nat}

/-- Division has found the digits of the value `v`, which is rounded once, or the value is too
large. -/
inductive Finds (v : Rat) : Option (Nat × Nat) → Prop
  | rounded {n s : Nat} {x : Decimal} (parts : ofParts? n s = some x) (rounds : Rounds v x) :
      Finds v (some (n, s))
  | tooLarge (large : (coeffBound : Rat) - 1 / 2 ≤ v) : Finds v none

theorem RoundsAt.finds {v : Rat} {n : Nat} (h : RoundsAt v n t) : Finds v (some (n, t)) := by
  obtain ⟨x, hx⟩ := Option.isSome_iff_exists.1 (ofParts?_isSome.2 ⟨h.lt, h.scale_le⟩)
  exact .rounded hx ⟨n, t, h, toRat_of_parts hx⟩

theorem finds_of_eq {v : Rat} {n s : Nat} (hn : n < coeffBound) (hs : s ≤ 28)
    (hv : v = n / (10 ^ s : Nat)) : Finds v (some (n, s)) := by
  have hparts : (ofParts? n s).isSome := ofParts?_isSome.2 ⟨(Int.natAbs_natCast n).symm ▸ hn, hs⟩
  obtain ⟨x, hx⟩ := Option.isSome_iff_exists.1 hparts
  have hvalue : x.toRat = v := by rw [toRat_of_parts hx, hv, Rat.mkRat_eq_div, Int.cast_natCast]
  exact .rounded hx (hvalue ▸ rounds_toRat x)

/-- The quotient `p'` is `p` without some zeros at its end. -/
def Stripped (p p' : Nat × Nat) : Prop := ∃ j, p.1 = p'.1 * 10 ^ j ∧ p.2 = p'.2 + j

theorem Stripped.refl (p : Nat × Nat) : Stripped p p := ⟨0, by rw [Nat.pow_zero, Nat.mul_one], rfl⟩

theorem Stripped.trans {p p' p'' : Nat × Nat} (h : Stripped p p') (h' : Stripped p' p'') :
    Stripped p p'' := by
  obtain ⟨j, hquot, hscale⟩ := h
  obtain ⟨j', hquot', hscale'⟩ := h'
  refine ⟨j' + j, ?_, by omega⟩
  rw [hquot, hquot', Nat.mul_assoc, ← Nat.pow_add]

theorem Stripped.of_zeros {q s k : Nat} (hk : k ≤ s) (hzeros : q % 10 ^ k = 0) :
    Stripped (q, s) (q / 10 ^ k, s - k) :=
  ⟨k, (Nat.div_mul_cancel (Nat.dvd_of_mod_eq_zero hzeros)).symm, (Nat.sub_add_cancel hk).symm⟩

theorem stripped_stripZeros (k : Nat) (p : Nat × Nat) : Stripped p (stripZeros k p) := by
  unfold stripZeros
  split
  · next h => exact .of_zeros h.1 h.2
  · exact .refl p

theorem stripped_stripEights (q s : Nat) : Stripped (q, s) (stripEights q s) := by
  induction q, s using stripEights.induct with
  | case1 q s heights ih =>
      unfold stripEights
      rw [if_pos heights]
      exact (Stripped.of_zeros heights.1 heights.2.2).trans ih
  | case2 q s heights =>
      unfold stripEights
      rw [if_neg heights]
      exact .refl _

/-- Only zeros at the end of a quotient are removed. -/
theorem stripped_tidyQuotient (p : Nat × Nat) : Stripped p (tidyQuotient p) :=
  (((stripped_stripEights p.1 p.2).trans (stripped_stripZeros 4 _)).trans
    (stripped_stripZeros 2 _)).trans (stripped_stripZeros 1 _)

/-- Zeros at the end of a quotient make no difference. -/
theorem Finds.of_stripped {v : Rat} {p p' : Nat × Nat} (h : Finds v (some p))
    (hp : Stripped p p') : Finds v (some p') := by
  obtain ⟨n, s⟩ := p
  obtain ⟨n', s'⟩ := p'
  obtain ⟨j, rfl, rfl⟩ := hp
  cases h with
  | rounded hx hround =>
    obtain ⟨hlt, hle⟩ := ofParts?_isSome.1 (Option.isSome_of_eq_some hx)
    rw [Int.natAbs_natCast] at hlt
    have hn : n' < coeffBound :=
      Nat.lt_of_le_of_lt (Nat.le_mul_of_pos_right _ (Nat.pow_pos (by decide))) hlt
    have hparts : (ofParts? n' s').isSome :=
      ofParts?_isSome.2 ⟨(Int.natAbs_natCast n').symm ▸ hn, Nat.le_trans (Nat.le_add_right _ _) hle⟩
    obtain ⟨y, hy⟩ := Option.isSome_iff_exists.1 hparts
    refine .rounded hy (hround.of_toRat_eq ?_)
    rw [toRat_of_parts hx, toRat_of_parts hy, Nat.pow_add, Int.natCast_mul,
      Rat.mkRat_mul_right (Nat.ne_of_gt (Nat.pow_pos (by decide)))]

/-! ### Long division -/

theorem dropLast_mul_le (q : Nat) (sticky : Bool) : dropLast q sticky * 10 ≤ q + 5 := by
  unfold dropLast
  split <;> omega

variable {v : Rat} {d q r u : Nat}

/-- Division of the value `v` by `d` has come to the quotient `q` and the remainder `r`.  The
quotient has `u - 28` fraction digits, where digits before the point that are still missing count as
well. -/
structure DividesTo (v : Rat) (d q r u : Nat) : Prop where
  value : v * (10 ^ u : Nat) = (q + (r : Rat) / d) * (10 ^ 28 : Nat)
  remainder_lt : r < d

/-- The next `k` digits. -/
theorem DividesTo.digits (h : DividesTo v d q r u) (k : Nat) :
    DividesTo v d (q * 10 ^ k + r * 10 ^ k / d) (r * 10 ^ k % d) (u + k) := by
  have hpos : 0 < d := Nat.zero_lt_of_lt h.remainder_lt
  refine ⟨?_, Nat.mod_lt _ hpos⟩
  have hd : (d : Rat) ≠ 0 := Nat.cast_ne_zero.2 hpos.ne'
  have hdigits : (r : Rat) * (10 ^ k : Nat) =
      (r * 10 ^ k / d : Nat) * d + (r * 10 ^ k % d : Nat) := by
    exact_mod_cast (Nat.div_add_mod' (r * 10 ^ k) d).symm
  have hsum : ((q * 10 ^ k + r * 10 ^ k / d : Nat) : Rat) + (r * 10 ^ k % d : Nat) / d =
      (q + (r : Rat) / d) * (10 ^ k : Nat) := by
    rw [Nat.cast_add, Nat.cast_mul]
    generalize r * 10 ^ k / d = e at *
    generalize r * 10 ^ k % d = f at *
    field_simp
    linarith
  rw [hsum, Nat.pow_add, Nat.cast_mul, ← mul_assoc, h.value, mul_right_comm]

/-- With fraction digits, the quotient is the value in units of the last one. -/
theorem DividesTo.mul_eq (h : DividesTo v d q r u) (hu : 28 ≤ u) :
    v * (10 ^ (u - 28) : Nat) = q + (r : Rat) / d := by
  have hvalue := h.value
  have hpow : 10 ^ u = 10 ^ (u - 28) * 10 ^ 28 := by rw [← Nat.pow_add, Nat.sub_add_cancel hu]
  rw [hpow, Nat.cast_mul, ← mul_assoc] at hvalue
  exact mul_right_cancel₀ (cast_pow_pos 28).ne' hvalue

/-- As long as digits before the point are missing, the value is the larger number. -/
theorem DividesTo.eq_mul (h : DividesTo v d q r u) (hu : u ≤ 28) :
    v = (q + (r : Rat) / d) * (10 ^ (28 - u) : Nat) := by
  have hvalue := h.value
  have hpow : 10 ^ 28 = 10 ^ (28 - u) * 10 ^ u := by rw [← Nat.pow_add, Nat.sub_add_cancel hu]
  rw [hpow, Nat.cast_mul, ← mul_assoc] at hvalue
  exact mul_right_cancel₀ (cast_pow_pos u).ne' hvalue

theorem DividesTo.remainder_div (h : DividesTo v d q r u) :
    0 ≤ (r : Rat) / d ∧ (r : Rat) / d < 1 := by
  have hd : (0 : Rat) < d := Nat.cast_pos.2 (Nat.zero_lt_of_lt h.remainder_lt)
  refine ⟨by positivity, ?_⟩
  rw [div_lt_one hd]
  exact_mod_cast h.remainder_lt

theorem DividesTo.nonneg (h : DividesTo v d q r u) : 0 ≤ v := by
  have hvalue := h.value
  have hprod : 0 ≤ v * (10 ^ u : Nat) := by
    rw [hvalue]
    have := h.remainder_div.1
    positivity
  exact nonneg_of_mul_nonneg_left hprod (cast_pow_pos u)

/-- Without a remainder, division ends. -/
theorem DividesTo.finds_of_eq_zero (h : DividesTo v d q 0 u) (hq : q < coeffBound) (hu : u ≤ 56) :
    Finds v (longDivision d q 0 ((u : Int) - 28)) := by
  unfold longDivision
  rw [if_pos rfl]
  rcases Nat.lt_or_ge u 28 with hlt | hle
  · -- zeros are still owed before the point
    have hvalue := h.eq_mul hlt.le
    rw [Nat.cast_zero, zero_div, add_zero] at hvalue
    have hzeros : (-((u : Int) - 28)).toNat = 28 - u := by omega
    rw [if_neg (by omega), hzeros]
    split
    · next hfits =>
        exact finds_of_eq hfits (Nat.zero_le _) (by rw [hvalue]; push_cast; ring)
    · next hlarge =>
        have hbound : (coeffBound : Rat) ≤ (q * 10 ^ (28 - u) : Nat) :=
          Nat.cast_le.2 (Nat.not_lt.1 hlarge)
        refine .tooLarge ?_
        rw [hvalue]
        rw [Nat.cast_mul] at hbound
        linarith
  · have hvalue := h.mul_eq hle
    rw [Nat.cast_zero, zero_div, add_zero] at hvalue
    have hscale : ((u : Int) - 28).toNat = u - 28 := by omega
    rw [if_pos (by omega), hscale]
    exact finds_of_eq hq (by omega) (eq_div_of_mul_eq (cast_pow_pos _).ne' hvalue)

/-- A quotient that has outgrown the bound gives a digit up, or it is too large. -/
theorem DividesTo.finds_giveUpDigit (h : DividesTo v d q r u) (hu : u ≤ 56)
    (hlarge : (coeffBound : Rat) - 1 / 2 ≤ q + (r : Rat) / d) (hlt : q < 2 * coeffBound)
    {sticky : Bool} (hsticky : sticky = true ↔ r ≠ 0) :
    Finds v (giveUpDigit q sticky ((u : Int) - 28)) := by
  obtain ⟨h0, h1⟩ := h.remainder_div
  have hd : (d : Rat) ≠ 0 := Nat.cast_ne_zero.2 (Nat.zero_lt_of_lt h.remainder_lt).ne'
  unfold giveUpDigit
  rcases Nat.lt_or_ge 28 u with hlong | hshort
  · have hscale : ((u : Int) - 28 - 1).toNat = u - 29 := by omega
    have hvalue := h.mul_eq hlong.le
    have hpow : 10 ^ (u - 28) = 10 ^ (u - 29) * 10 := by
      rw [← Nat.pow_succ]
      congr 1
      omega
    rw [if_pos (by omega), hscale]
    refine RoundsAt.finds ⟨?_, by omega, ?_, .inr ?_⟩
    · have hdrop := dropLast_mul_le q sticky
      have hten : 10 < coeffBound := by decide
      omega
    · have htenth : v * (10 ^ (u - 29) : Nat) = (q + (r : Rat) / d) / 10 := by
        rw [hpow, Nat.cast_mul, Nat.cast_ofNat, ← mul_assoc] at hvalue
        rw [← hvalue, mul_div_cancel_right₀ _ (by norm_num)]
      rw [htenth]
      refine isNearestEven_dropLast q h0 h1 (hsticky.trans ?_)
      rw [ne_eq, ne_eq, div_eq_zero_iff, or_iff_left hd, Nat.cast_eq_zero]
    · have hplaces : u - 29 + 1 = u - 28 := by omega
      rw [abs_of_nonneg h.nonneg, hplaces, hvalue]
      exact hlarge
  · rw [if_neg (by omega)]
    refine .tooLarge ?_
    rw [h.eq_mul hshort]
    have hpow : (1 : Rat) ≤ (10 ^ (28 - u) : Nat) := by
      exact_mod_cast Nat.one_le_pow (28 - u) 10 (by decide)
    exact hlarge.trans (le_mul_of_one_le_right (by positivity) hpow)

/-- With room for no further digit, the quotient is rounded. -/
theorem DividesTo.finds_rounded (h : DividesTo v d q r u) (hu : u ≤ 56) (hu' : 28 ≤ u)
    (hq : q < coeffBound) (hr : r ≠ 0) (hfull : u = 56 ∨ coeffBound ≤ q * 10) {q' : Nat}
    (hq' : (if 2 * r > d ∨ 2 * r = d ∧ q % 2 = 1 then q + 1 else q) = q') :
    Finds v (if q' < coeffBound then some (q', ((u : Int) - 28).toNat)
      else giveUpDigit q' true ((u : Int) - 28)) := by
  have hvalue := h.mul_eq hu'
  have hnearest := isNearestEven_remainder q h.remainder_lt
  rw [hq'] at hnearest
  split
  · next hlt =>
      have hscale : ((u : Int) - 28).toNat = u - 28 := by omega
      rw [hscale]
      refine RoundsAt.finds ⟨hlt, by omega, hvalue ▸ hnearest, ?_⟩
      refine hfull.imp (fun h56 => by omega) fun hten => ?_
      have hten' : (coeffBound : Rat) ≤ (q : Rat) * 10 := by exact_mod_cast hten
      rw [abs_of_nonneg h.nonneg, Nat.pow_succ, Nat.cast_mul, ← mul_assoc, hvalue, Nat.cast_ofNat]
      have := h.remainder_div.1
      linarith
  · next hlarge =>
      -- the bound itself and the number before it give up one digit alike
      have hle : q' ≤ q + 1 := by
        rw [← hq']
        split <;> omega
      obtain rfl : q' = coeffBound := by omega
      obtain rfl : q = coeffBound - 1 := by omega
      have hdrop : dropLast coeffBound true = dropLast (coeffBound - 1) true := by decide
      have hhalf : (coeffBound : Rat) - 1 / 2 ≤ (coeffBound - 1 : Nat) + (r : Rat) / d := by
        have hnear := (abs_le.1 hnearest.near).1
        push_cast at hnear ⊢
        linarith
      rw [giveUpDigit, hdrop]
      exact h.finds_giveUpDigit hu hhalf (by omega) (iff_of_true rfl hr)

/-- With room for no further digit before the point, the value is too large. -/
theorem DividesTo.finds_none (h : DividesTo v d q r u) (hu : u < 28) (hfull : coeffBound ≤ q * 10) :
    Finds v none := by
  refine .tooLarge ?_
  have hten : (coeffBound : Rat) ≤ (q : Rat) * 10 := by exact_mod_cast hfull
  have hpow : ((10 : Nat) : Rat) ≤ (10 ^ (28 - u) : Nat) := by
    exact_mod_cast Nat.pow_le_pow_right (by decide : 0 < 10) (by omega : 1 ≤ 28 - u)
  have hquot : (q : Rat) ≤ q + (r : Rat) / d := le_add_of_nonneg_right h.remainder_div.1
  have hle := mul_le_mul hquot hpow (by norm_num) (by positivity)
  rw [h.eq_mul hu.le]
  push_cast at hle ⊢
  linarith

/-- Long division finds the digits of the value. -/
theorem finds_longDivision (n : Nat) : ∀ {q r u : Nat}, u + n = 56 → q < coeffBound →
    DividesTo v d q r u → Finds v (longDivision d q r ((u : Int) - 28)) := by
  induction n using Nat.strongRecOn with
  | ind n ih =>
      -- on the digits that there may still be, of which every turn but the last one uses some
      intro q r u hu hq h
      rcases eq_or_ne r 0 with rfl | hr
      · exact h.finds_of_eq_zero hq (by omega)
      have hleft : (28 - ((u : Int) - 28)).toNat = n := by omega
      have hspare := spareDigits_le (min 9 n) q
      have hfull := @coeffBound_le_of_spareDigits_lt (min 9 n) q
      have hfill := mul_pow_spareDigits_lt (min 9 n) q hq
      rw [longDivision, if_neg hr, hleft]
      generalize spareDigits (min 9 n) q = k at hspare hfull hfill
      rcases Nat.eq_zero_or_pos k with rfl | hk
      · rw [Nat.pow_zero, Nat.mul_one] at hfull
        rw [if_pos rfl]
        split
        · next hneg => exact h.finds_none (by omega) (hfull (by omega))
        · next hneg =>
            refine h.finds_rounded (by omega) (by omega) hq hr ?_ rfl
            exact or_iff_not_imp_left.2 fun hne => hfull (by omega)
      have hscale : ((u : Int) - 28) + k = ((u + k : Nat) : Int) - 28 := by omega
      have hnext := h.digits k
      have hdigits : r * 10 ^ k / d < 10 ^ k :=
        Nat.div_lt_of_lt_mul ((Nat.mul_lt_mul_right (Nat.pow_pos (by decide))).2 h.remainder_lt)
      have hnine : 10 ^ k ≤ 10 ^ 9 := Nat.pow_le_pow_right (by decide) (by omega)
      have hbound : 10 ^ 9 < coeffBound := by decide
      simp only [if_neg hk.ne', hscale]
      split
      · next hroom => exact ih (n - k) (by omega) (by omega) hroom hnext
      · next hroom =>
          refine hnext.finds_giveUpDigit (by omega) ?_ (by omega) (by simp)
          have hlarge : (coeffBound : Rat) ≤ (q * 10 ^ k + r * 10 ^ k / d : Nat) :=
            Nat.cast_le.2 (Nat.not_lt.1 hroom)
          have := hnext.remainder_div.1
          linarith

/-! ### Quotients with their signs -/

variable {x a b : Decimal}

/-- The decimal with the digits of a value, and its sign. -/
theorem Finds.exists_signed {n s : Nat} (h : Finds v (some (n, s))) {e : Int}
    (he : e = 1 ∨ e = -1) : ∃ x, ofParts? (e * n) s = some x ∧ Rounds (e * v) x := by
  cases h with
  | @rounded _ _ x hx hround =>
    rcases he with rfl | rfl
    · exact ⟨x, by rwa [Int.one_mul], by rwa [Int.cast_one, one_mul]⟩
    · obtain ⟨hlt, hle⟩ := ofParts?_isSome.1 (Option.isSome_of_eq_some hx)
      have hparts : (ofParts? (-n) s).isSome :=
        ofParts?_isSome.2 ⟨(Int.natAbs_neg _).symm ▸ hlt, hle⟩
      obtain ⟨y, hy⟩ := Option.isSome_iff_exists.1 hparts
      refine ⟨y, by rwa [Int.neg_one_mul], ?_⟩
      rw [Int.cast_neg, Int.cast_one, neg_one_mul]
      refine hround.neg.of_toRat_eq ?_
      rw [toRat_neg, toRat_of_parts hx, toRat_of_parts hy, Rat.neg_mkRat]

theorem sign_mul_abs_toRat (x : Decimal) : (x.coeff.sign : Rat) * |x.toRat| = x.toRat := by
  rw [toRat, abs_mkRat, Rat.mkRat_eq_div, mul_div_assoc', ← Int.cast_natCast, ← Int.cast_mul,
    Int.sign_mul_natAbs]

/-- Division starts with whole numbers. -/
theorem dividesTo_start (a b : Decimal) (hb : 0 < b.size) :
    DividesTo |a.toRat / b.toRat| b.size (a.size / b.size) (a.size % b.size)
      (a.scale + 28 - b.scale) := by
  refine ⟨?_, Nat.mod_lt _ hb⟩
  have hbscale := b.scale_le
  have hb' : (b.size : Rat) ≠ 0 := Nat.cast_ne_zero.2 hb.ne'
  have hquot : ((a.size / b.size : Nat) : Rat) + (a.size % b.size : Nat) / b.size =
      (a.size : Rat) / b.size := by
    rw [eq_div_iff hb', add_mul, div_mul_cancel₀ _ hb']
    exact_mod_cast Nat.div_add_mod' a.size b.size
  have hpow : ((10 ^ (a.scale + 28 - b.scale) : Nat) : Rat) * (10 ^ b.scale : Nat) =
      (10 ^ a.scale : Nat) * (10 ^ 28 : Nat) := by
    rw [← Nat.cast_mul, ← Nat.cast_mul, ← Nat.pow_add, ← Nat.pow_add,
      Nat.sub_add_cancel (by omega)]
  have ha10 := (cast_pow_pos a.scale).ne'
  have hb10 := (cast_pow_pos b.scale).ne'
  rw [hquot, abs_div, toRat, toRat, abs_mkRat, abs_mkRat, natAbs_coeff, natAbs_coeff,
    div_div_div_eq, div_mul_eq_mul_div, div_mul_eq_mul_div,
    div_eq_div_iff (mul_ne_zero ha10 hb') hb']
  calc (a.size : Rat) * (10 ^ b.scale : Nat) * (10 ^ (a.scale + 28 - b.scale) : Nat) * b.size
    _ = a.size * ((10 ^ (a.scale + 28 - b.scale) : Nat) * (10 ^ b.scale : Nat)) * b.size := by ring
    _ = a.size * (10 ^ 28 : Nat) * ((10 ^ a.scale : Nat) * b.size) := by rw [hpow]; ring

theorem sign_coeff_eq (h : x.size ≠ 0) : x.coeff.sign = 1 ∨ x.coeff.sign = -1 := by
  rw [← natAbs_coeff, Int.natAbs_ne_zero] at h
  rcases lt_or_gt_of_ne h with hneg | hpos
  · exact .inr (Int.sign_eq_neg_one_of_neg hneg)
  · exact .inl (Int.sign_eq_one_of_pos hpos)

/-- The sign of a quotient is the product of the signs. -/
theorem sign_mul_abs_div (a : Decimal) (hb : b.size ≠ 0) :
    ((a.coeff.sign * b.coeff.sign : Int) : Rat) * |a.toRat / b.toRat| = a.toRat / b.toRat := by
  have hturn : (b.coeff.sign : Rat) / |b.toRat| = 1 / b.toRat := by
    conv_rhs => rw [← b.sign_mul_abs_toRat]
    rcases sign_coeff_eq hb with h | h
    · rw [h, Int.cast_one, one_mul]
    · rw [h, Int.cast_neg, Int.cast_one, neg_one_mul, neg_div, div_neg]
  calc ((a.coeff.sign * b.coeff.sign : Int) : Rat) * |a.toRat / b.toRat|
    _ = a.coeff.sign * |a.toRat| * (b.coeff.sign / |b.toRat|) := by
        rw [abs_div, Int.cast_mul]
        ring
    _ = a.toRat / b.toRat := by rw [a.sign_mul_abs_toRat, hturn, mul_one_div]

/-- What division finds is the quotient. -/
theorem div_spec (hb : b.toRat ≠ 0) : (∃ x, a.div b = some x ∧ Rounds (a.toRat / b.toRat) x) ∨
    a.div b = none ∧ ¬ Fits (a.toRat / b.toRat) := by
  have hbzero : b.isZero = false := by
    rw [← Bool.not_eq_true, ← toRat_eq_zero_iff]
    exact hb
  have hbsize : b.size ≠ 0 := fun h0 => by
    rw [isZero, h0] at hbzero
    cases hbzero
  unfold div
  rw [hbzero, if_neg Bool.false_ne_true]
  by_cases hazero : a.isZero
  · refine .inl ⟨zero, if_pos hazero, ?_⟩
    rw [toRat_of_isZero hazero, zero_div]
    exact rounds_zero
  have hasize : a.size ≠ 0 := fun h0 => hazero (by rw [isZero, h0]; rfl)
  have hsign : a.coeff.sign * b.coeff.sign = 1 ∨ a.coeff.sign * b.coeff.sign = -1 := by
    rcases sign_coeff_eq hasize with ha | ha <;> rcases sign_coeff_eq hbsize with hb | hb <;>
      simp [ha, hb]
  have hascale := a.scale_le
  have hbscale := b.scale_le
  have hscale : (a.scale : Int) - b.scale = ((a.scale + 28 - b.scale : Nat) : Int) - 28 := by omega
  have hfinds := finds_longDivision (28 - a.scale + b.scale) (by omega)
    (Nat.lt_of_le_of_lt (Nat.div_le_self _ _) a.size_lt)
    (dividesTo_start a b (Nat.pos_of_ne_zero hbsize))
  rw [if_neg hazero, hscale]
  dsimp only
  generalize longDivision b.size (a.size / b.size) (a.size % b.size) _ = found at hfinds ⊢
  rcases found with _ | p
  · cases hfinds with
    | tooLarge large => exact .inr ⟨rfl, fun hfits => absurd hfits (not_lt_of_ge large)⟩
  · refine .inl ?_
    have htidy : Finds |a.toRat / b.toRat|
        (some (if a.size % b.size = 0 then p else tidyQuotient p)) := by
      split
      · exact hfinds
      · exact hfinds.of_stripped (stripped_tidyQuotient p)
    dsimp only
    generalize (if a.size % b.size = 0 then p else tidyQuotient p) = p' at htidy ⊢
    obtain ⟨n, s⟩ := p'
    have hsigned := htidy.exists_signed hsign
    rwa [sign_mul_abs_div a hbsize] at hsigned

/-- **A quotient is rounded once.** -/
theorem rounds_div (hb : b.toRat ≠ 0) (h : a.div b = some x) : Rounds (a.toRat / b.toRat) x := by
  rcases div_spec (a := a) hb with ⟨y, hy, hround⟩ | ⟨hnone, -⟩
  · rw [hy] at h
    exact Option.some.inj h ▸ hround
  · rw [hnone] at h
    cases h

/-- **A quotient is too large if and only if its value does not fit.** -/
theorem div_isSome_iff (hb : b.toRat ≠ 0) : (a.div b).isSome ↔ Fits (a.toRat / b.toRat) := by
  rcases div_spec (a := a) hb with ⟨y, hy, hround⟩ | ⟨hnone, hlarge⟩
  · exact iff_of_true (by rw [hy]; rfl) hround.fits
  · exact iff_of_false (by rw [hnone]; exact Bool.false_ne_true) hlarge

/-- **There is always a hundredth of a number.** -/
theorem exists_hundredth (x : Decimal) :
    ∃ y, x.div .hundred = some y ∧ ∀ b, x.AtMost b → y.AtMost (b / 100 + 11) := by
  have hvalue : hundred.toRat = 100 := by decide +kernel
  have hundredth : |x.toRat / hundred.toRat| = |x.toRat| / 100 := by
    rw [hvalue, abs_div]
    norm_num
  have hfits : Fits (x.toRat / hundred.toRat) := by
    have hx := x.fits_toRat
    have hnonneg := abs_nonneg x.toRat
    unfold Fits at hx ⊢
    rw [hundredth]
    linarith
  have hne : hundred.toRat ≠ 0 := by rw [hvalue]; norm_num
  obtain ⟨y, hy⟩ := Option.isSome_iff_exists.1 ((div_isSome_iff hne).2 hfits)
  refine ⟨y, hy, fun b hx => (rounds_div hne hy).atMost ?_⟩
  have hb : (b : Rat) ≤ (b / 100 : Nat) * 100 + 99 := by
    exact_mod_cast (by omega : b ≤ b / 100 * 100 + 99)
  have hx := atMost_iff.1 hx
  rw [hundredth]
  push_cast at hb ⊢
  linarith

/-- There is always one and a hundredth of a number. -/
theorem exists_one_add_hundredth (x : Decimal) : ∃ y z, x.div .hundred = some y ∧
    one.add y = some z ∧ ∀ b, x.AtMost b → z.AtMost (b / 100 + 12) := by
  obtain ⟨y, hy, hnear⟩ := x.exists_hundredth
  have hone : one.AtMost 1 := by decide
  obtain ⟨z, hz⟩ := Option.isSome_iff_exists.1
    (add_isSome_iff.2 (hone.fits_add (hnear _ x.atMost_coeffBound) (by decide)))
  refine ⟨y, z, hy, hz, fun b hx => ?_⟩
  exact (hone.add (hnear b hx) hz).mono (by omega)

end Estimating.Decimal
