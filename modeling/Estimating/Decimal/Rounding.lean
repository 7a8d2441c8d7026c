/-
Rounding a decimal to a given number of fraction digits.

Quantities and amounts are kept at two fraction digits and learned factors at three, a half going
away from zero.

* `Decimal.roundDiv` — a quotient of natural numbers to the nearest whole number, with the rule for
  a tie as a parameter; `Decimal.roundDiv_le` says that it never exceeds the dividend;
* `Decimal.roundTo` — the decimal nearest to a number among those with `n` fraction digits, written
  with exactly `n` of them as long as its digits fit, and without a sign if it is zero;
* `Decimal.cutTo` — the same for a fraction that is longer, but a zero keeps the sign of the number;
* `Decimal.roundMoney`, `Decimal.roundFactor` — the two scales in use.
-/
import Estimating.Decimal.Basic

set_option autoImplicit false

namespace Estimating.Decimal

/-- Where a number halfway between two whole numbers goes. -/
inductive Tie
  | /-- To the even one of the two. -/ toEven
  | /-- To the one further from zero. -/ awayFromZero
deriving DecidableEq, Repr

/-- The whole number nearest to `n / d`; a tie goes as `tie` says. -/
def roundDiv (tie : Tie) (n d : Nat) : Nat :=
  if 2 * (n % d) < d then n / d
  else if 2 * (n % d) = d ∧ tie = .toEven ∧ n / d % 2 = 0 then n / d
  else n / d + 1

@[simp] theorem roundDiv_one (tie : Tie) (n : Nat) : roundDiv tie n 1 = n := by
  simp [roundDiv, Nat.mod_one]

@[simp] theorem roundDiv_zero (tie : Tie) (d : Nat) (h : 0 < d) : roundDiv tie 0 d = 0 := by
  simp [roundDiv, h]

theorem roundDiv_le (tie : Tie) (n d : Nat) (h : 0 < d) : roundDiv tie n d ≤ n := by
  have hq : n / d ≤ n := Nat.div_le_self n d
  have hn : d * (n / d) + n % d = n := Nat.div_add_mod n d
  unfold roundDiv
  split
  · exact hq
  · split
    · exact hq
    · rename_i hr _
      have hr' : 0 < n % d := by omega
      have : n / d ≤ d * (n / d) := Nat.le_mul_of_pos_left _ h
      omega

/-- A coefficient with its last `k` digits rounded away; the sign is kept. -/
def dropDigits (tie : Tie) (c : Int) (k : Nat) : Int := c.sign * roundDiv tie c.natAbs (10 ^ k)

theorem natAbs_dropDigits_le (tie : Tie) (c : Int) (k : Nat) :
    (dropDigits tie c k).natAbs ≤ c.natAbs := by
  unfold dropDigits
  rw [Int.natAbs_mul, Int.natAbs_sign]
  have := roundDiv_le tie c.natAbs (10 ^ k) (Nat.pow_pos (by decide))
  split <;> simp_all

/-- How many zeros, of at most `n`, can be written after a coefficient of size `m`. -/
def spareDigits : Nat → Nat → Nat
  | 0, _ => 0
  | n + 1, m => if m * 10 < coeffBound then spareDigits n (m * 10) + 1 else 0

theorem spareDigits_le (n m : Nat) : spareDigits n m ≤ n := by
  induction n generalizing m with
  | zero => exact Nat.le_refl _
  | succ n ih =>
      unfold spareDigits
      split
      · exact Nat.succ_le_succ (ih _)
      · exact Nat.zero_le _

theorem mul_pow_spareDigits_lt (n m : Nat) (h : m < coeffBound) :
    m * 10 ^ spareDigits n m < coeffBound := by
  induction n generalizing m with
  | zero => simpa [spareDigits] using h
  | succ n ih =>
      unfold spareDigits
      split
      · rename_i h'
        have := ih (m * 10) h'
        rw [Nat.pow_succ, Nat.mul_comm (10 ^ _) 10, ← Nat.mul_assoc]
        exact this
      · simpa using h

/-- The same value written with `n` more fraction digits, or with as many as fit. -/
def appendZeros (x : Decimal) (n : Nat) : Decimal :=
  let k := spareDigits (min n (maxScale - x.scale)) x.size
  ofCoeff (x.coeff * (10 ^ k : Nat)) (x.scale + k)
    (by
      rw [Int.natAbs_mul, Int.natAbs_natCast, natAbs_coeff]
      exact mul_pow_spareDigits_lt _ _ x.size_lt)
    (by
      have h := spareDigits_le (min n (maxScale - x.scale)) x.size
      have h' := x.scale_le
      have : maxScale = 28 := rfl
      omega)

/-- The number with `n` fraction digits that is nearest to `x`, a half going away from zero.  It is
written with exactly `n` fraction digits unless it is too large for that many; a zero has no sign. -/
def roundTo (x : Decimal) (n : Nat) : Decimal :=
  if h : n < x.scale then
    ofCoeff (dropDigits .awayFromZero x.coeff (x.scale - n)) n
      (Nat.lt_of_le_of_lt (natAbs_dropDigits_le _ _ _) x.coeff_lt)
      (Nat.le_trans (Nat.le_of_lt h) x.scale_le)
  else x.appendZeros (n - x.scale)

/-- The number with its fraction cut to `n` digits, a half going away from zero.  The sign stays,
also on a number of which nothing else is left. -/
def cutTo (x : Decimal) (n : Nat) : Decimal :=
  ⟨x.negative, roundDiv .awayFromZero x.size (10 ^ (x.scale - n)), min x.scale n,
    Nat.lt_of_le_of_lt (roundDiv_le _ _ _ (Nat.pow_pos (by decide))) x.size_lt,
    Nat.le_trans (Nat.min_le_left _ _) x.scale_le⟩

/-- Fraction digits of quantities and amounts. -/
def moneyScale : Nat := 2

/-- Fraction digits of learned factors. -/
def factorScale : Nat := 3

/-- A quantity or amount to two fraction digits. -/
def roundMoney (x : Decimal) : Decimal := x.roundTo moneyScale

/-- A factor to three fraction digits. -/
def roundFactor (x : Decimal) : Decimal := x.roundTo factorScale

end Estimating.Decimal
