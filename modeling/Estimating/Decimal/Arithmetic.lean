/-
Sums, differences, products and quotients of decimals.

Every operation computes on whole numbers of any size and then finds room for the result among the
decimals, so there is one rounding at most.  A result too large for any decimal is `none`.

* `Decimal.fit` — a coefficient and scale of any size as a decimal: the fewest last digits are
  dropped, a half going to the even neighbour, and only digits after the point may go;
* `Decimal.add`, `Decimal.sub`, `Decimal.mul` — the exact result, fitted.  A zero operand of a sum
  leaves the other operand as it is, scale included;
* `Decimal.div` — long division to as many digits as fit; zeros at the end of a quotient that does
  not come out whole are removed in groups of eight, four, two and one;
* `Decimal.sum` — the sum of a list from the left.
-/
import Estimating.Decimal.Rounding

set_option autoImplicit false

namespace Estimating.Decimal

/-! ### Fitting -/

/-- How many digits `m` has too many. -/
def excessDigits (m : Nat) : Nat :=
  if m < 2 ^ 96 then 0 else excessDigits (m / 10) + 1
termination_by m
decreasing_by omega

/-- `c / 10 ^ s` with its last `k` digits rounded away, where that is a decimal. -/
def shorten? (c : Int) (s k : Nat) : Option Decimal :=
  if k ≤ s then ofParts? (dropDigits .toEven c k) (s - k) else none

/-- The decimal for `c / 10 ^ s`.  As few digits are dropped as can be; when rounding brings the
coefficient to the bound itself, one more. -/
def fit (c : Int) (s : Nat) : Option Decimal :=
  let k := max (s - maxScale) (excessDigits c.natAbs)
  (shorten? c s k).or (shorten? c s (k + 1))

/-! ### Sums and products -/

/-- The sum, or `none` if it is too large. -/
def add (a b : Decimal) : Option Decimal :=
  if a.isZero then some b
  else if b.isZero then some a
  else
    let s := max a.scale b.scale
    fit (a.coeff * 10 ^ (s - a.scale) + b.coeff * 10 ^ (s - b.scale)) s

/-- The difference, or `none` if it is too large. -/
def sub (a b : Decimal) : Option Decimal := a.add b.neg

/-- The product, or `none` if it is too large. -/
def mul (a b : Decimal) : Option Decimal :=
  if a.isZero || b.isZero then some zero else fit (a.coeff * b.coeff) (a.scale + b.scale)

/-- The sum of a list, added up from the left. -/
def sum (xs : List Decimal) : Option Decimal := xs.foldlM add zero

/-! ### Quotients -/

/-- A quotient with its last digit rounded away; `sticky` tells that more digits follow. -/
def dropLast (q : Nat) (sticky : Bool) : Nat :=
  if q % 10 > 5 ∨ (q % 10 = 5 ∧ (sticky ∨ q / 10 % 2 = 1)) then q / 10 + 1 else q / 10

/-- A quotient that has outgrown the bound by one digit gives that digit up. -/
def giveUpDigit (q : Nat) (sticky : Bool) (s : Int) : Option (Nat × Nat) :=
  if 0 < s then some (dropLast q sticky, (s - 1).toNat) else none

/-- Continues the division of a remainder `r < d` after the quotient `q` with `s` fraction digits,
up to nine digits at a time.  It ends when nothing remains or no further digit fits; then the
quotient is rounded, a half going to the even neighbour.  A negative `s` counts zeros that are
still owed before the point. -/
def longDivision (d q r : Nat) (s : Int) : Option (Nat × Nat) :=
  if r = 0 then
    if 0 ≤ s then some (q, s.toNat)
    else if q * 10 ^ (-s).toNat < coeffBound then some (q * 10 ^ (-s).toNat, 0) else none
  else
    let k := spareDigits (min 9 (28 - s).toNat) q
    if k = 0 then
      if s < 0 then none
      else
        let q' := if 2 * r > d ∨ (2 * r = d ∧ q % 2 = 1) then q + 1 else q
        if q' < coeffBound then some (q', s.toNat) else giveUpDigit q' true s
    else
      let q' := q * 10 ^ k + r * 10 ^ k / d
      let r' := r * 10 ^ k % d
      if q' < coeffBound then longDivision d q' r' (s + k)
      else giveUpDigit q' (r' ≠ 0) (s + k)
termination_by (28 - s).toNat
decreasing_by
  have := spareDigits_le (min 9 (28 - s).toNat) q
  omega

/-- Removes `k` zeros from the end, if there are that many after the point. -/
def stripZeros (k : Nat) (p : Nat × Nat) : Nat × Nat :=
  if k ≤ p.2 ∧ p.1 % 10 ^ k = 0 then (p.1 / 10 ^ k, p.2 - k) else p

/-- Removes zeros in groups of eight, as long as the low 32 bits of the quotient are clear too. -/
def stripEights (q s : Nat) : Nat × Nat :=
  if 8 ≤ s ∧ q % 2 ^ 32 = 0 ∧ q % 10 ^ 8 = 0 then stripEights (q / 10 ^ 8) (s - 8) else (q, s)
termination_by s

/-- Removes zeros from the end of a quotient: eights, then four, two and one once each. -/
def tidyQuotient (p : Nat × Nat) : Nat × Nat :=
  stripZeros 1 (stripZeros 2 (stripZeros 4 (stripEights p.1 p.2)))

/-- The quotient, or `none` if it is too large or `b` is zero. -/
def div (a b : Decimal) : Option Decimal :=
  if b.isZero then none
  else if a.isZero then some zero
  else
    let q := a.size / b.size
    let r := a.size % b.size
    match longDivision b.size q r ((a.scale : Int) - b.scale) with
    | none => none
    | some p =>
      let (q, s) := if r = 0 then p else tidyQuotient p
      ofParts? (a.coeff.sign * b.coeff.sign * q) s

end Estimating.Decimal
