/-
Binary floating-point numbers of 64 bits, computed exactly on whole numbers.

Numbers reach the program in binary form where a JSON text or a setting writes a number that is no
64-bit integer.  They leave it as the shortest decimal numeral that reads back.

* `Binary64` — a number `± mantissa * 2 ^ exponent`, an infinity, or no number at all;
* `Binary64.ofRatio` — the number nearest to a quotient of natural numbers, ties to even;
* `Binary64.mul`, `Binary64.div` — the nearest number to a product or quotient of positive numbers;
* `Binary64.ofScientific` — the number nearest to `n * 10 ^ e`;
* `Binary64.shortest` — the fewest decimal digits that lie nearer to a number than to its
  neighbours, and of those the nearest, the larger of two at one distance;
* `Binary64.text` — these digits, written without an exponent;
* `Binary64.toCount` — the nearest natural number, a half going up, with everything below zero at
  zero.
-/
import Estimating.Decimal.Numeral

set_option autoImplicit false

namespace Estimating

/-- A binary64 number. -/
inductive Binary64
  | /-- `± mantissa * 2 ^ exponent`, with the mantissa below `2 ^ 53`. -/
    finite (negative : Bool) (mantissa : Nat) (exponent : Int)
  | infinite (negative : Bool)
  | notANumber
deriving DecidableEq, Repr

namespace Binary64

open Decimal (roundDiv digits lastDigits)

/-! ### Rounding to the format -/

/-- The least exponent. -/
def minExponent : Int := -1074

/-- The largest exponent of a mantissa below `2 ^ 53`. -/
def maxExponent : Int := 971

/-- `n * 2 ^ e`, for an exponent that is not negative. -/
def shift (n : Nat) (e : Int) : Nat := n * 2 ^ e.toNat

/-- The exponent at which `n / d` has a mantissa of 53 bits, or the least one. -/
def exponentOf (n d : Nat) : Int :=
  let e : Int := (Nat.log2 n : Int) - Nat.log2 d - 52
  let e := if shift n (-e) < shift d e * 2 ^ 52 then e - 1 else e
  max e minExponent

/-- The number nearest to `n / d`, ties to even; infinity if it is too large. -/
def ofRatio (n d : Nat) : Binary64 :=
  if n = 0 then finite false 0 minExponent
  else
    let e := exponentOf n d
    let m := roundDiv .toEven (shift n (-e)) (shift d e)
    let (m, e) := if m = 2 ^ 53 then (2 ^ 52, e + 1) else (m, e)
    if e > maxExponent then infinite false else finite false m e

/-- The nearest number to the product of two positive numbers. -/
def mul : Binary64 → Binary64 → Binary64
  | finite _ m e, finite _ m' e' => ofRatio (shift (m * m') (e + e')) (shift 1 (-(e + e')))
  | _, _ => infinite false

/-- The nearest number to the quotient of two positive numbers. -/
def div : Binary64 → Binary64 → Binary64
  | finite _ m e, finite _ m' e' => ofRatio (shift m (e - e')) (shift m' (e' - e))
  | _, _ => infinite false

/-- The same size with the given sign. -/
def withSign (negative : Bool) : Binary64 → Binary64
  | finite _ m e => finite negative m e
  | infinite _ => infinite negative
  | notANumber => notANumber

/-- The number nearest to `10 ^ k`. -/
def powerOfTen (k : Nat) : Binary64 := ofRatio (10 ^ k) 1

/-- The number nearest to `n * 10 ^ e`.  Exponents that lead far beyond the format are not worked
out. -/
def ofScientific (n : Nat) (e : Int) : Binary64 :=
  if n = 0 ∨ (digits n).length + e < -400 then finite false 0 minExponent
  else if e > 400 then infinite false
  else ofRatio (n * 10 ^ e.toNat) (10 ^ (-e).toNat)

/-! ### Shortest digits -/

/-- How many decimal digits stand before the point of `m * 2 ^ e`, or minus the zeros behind it. -/
def magnitude (m : Nat) (e : Int) : Int :=
  let whole := shift m e / shift 1 (-e)
  if whole > 0 then (digits whole).length
  else 1 - (digits ((shift 1 (-e) - 1) / m)).length

/-- The multiple of `10 ^ j` nearest to `m * 2 ^ e`, if it reads back as that number; of two at one
distance it is the larger.  Lengths are measured in quarters of `2 ^ e`: the number itself is at
`4 * m` and reaches two quarters to either side, or one quarter down where its lower neighbour is
half as far away. -/
def onGrid (m : Nat) (e j : Int) : Option Nat :=
  let unit := 10 ^ j.toNat * shift 1 (2 - e)
  let length (quarters : Nat) := quarters * 10 ^ (-j).toNat * shift 1 (e - 2)
  let low := length (if m = 2 ^ 52 ∧ e > minExponent then 4 * m - 1 else 4 * m - 2)
  let high := length (4 * m + 2)
  let readsBack (c : Nat) : Bool :=
    if m % 2 = 0 then low ≤ c * unit ∧ c * unit ≤ high else low < c * unit ∧ c * unit < high
  let below := length (4 * m) / unit
  let nearest := if 2 * (length (4 * m) % unit) < unit then below else below + 1
  let other := if nearest = below then below + 1 else below
  if readsBack nearest then some nearest else if readsBack other then some other else none

/-- The first of the grids of `n`, `n + 1`, … digits that has a numeral for the number. -/
def shortestFrom (m : Nat) (e k : Int) : Nat → Nat → Nat × Int
  | 0, n => ((onGrid m e (k - n)).getD 0, k - n)
  | more + 1, n =>
    match onGrid m e (k - n) with
    | some c => (c, k - n)
    | none => shortestFrom m e k more (n + 1)

/-- A coefficient without zeros at its end, and the exponent that keeps its value. -/
def trimZeros (c : Nat) (j : Int) : Nat × Int :=
  if 0 < c ∧ c % 10 = 0 then trimZeros (c / 10) (j + 1) else (c, j)
termination_by c
decreasing_by omega

/-- Coefficient and power of ten of the shortest numeral for `m * 2 ^ e`. -/
def shortest (m : Nat) (e : Int) : Nat × Int :=
  if m = 0 then (0, 0)
  else
    let (c, j) := shortestFrom m e (magnitude m e) 16 1
    trimZeros c j

/-- `c * 10 ^ j` without an exponent. -/
def plain (c : Nat) (j : Int) : List Char :=
  if 0 ≤ j then digits (c * 10 ^ j.toNat)
  else
    let s := (-j).toNat
    digits (c / 10 ^ s) ++ '.' :: lastDigits s (c % 10 ^ s)

/-- The shortest numeral that reads back, without an exponent. -/
def text : Binary64 → String
  | finite negative m e =>
    let (c, j) := shortest m e
    String.ofList (if negative then '-' :: plain c j else plain c j)
  | infinite negative => if negative then "-inf" else "inf"
  | notANumber => "NaN"

/-! ### Counts -/

/-- The nearest natural number below `2 ^ 64`. -/
def toCount : Binary64 → Nat
  | finite negative m e =>
    if negative then 0
    else min (roundDiv .awayFromZero (shift m e) (shift 1 (-e))) (2 ^ 64 - 1)
  | infinite negative => if negative then 0 else 2 ^ 64 - 1
  | notANumber => 0

/-- Whether the number is zero. -/
def isZero : Binary64 → Bool
  | finite _ m _ => m == 0
  | _ => false

end Binary64
end Estimating
