/-
Numerals: how decimals are written and read.

* `Decimal.digits`, `Decimal.lastDigits` — the decimal digits of a natural number, all of them or a
  fixed count of the last ones;
* `Decimal.numeral`, `Decimal.text` — a decimal written with exactly as many fraction digits as its
  scale says and at least one digit before the point;
* `Decimal.roundedText?` — the written form of a rounded number, also with more fraction digits than
  a decimal has;
* `Decimal.readPlain` — reads a sign, digits with underscores among them, and at most one point.
  Fraction digits beyond the 28th, or beyond what fits the coefficient, are rounded away by the
  first of them; a whole part that does not fit is an error;
* `Decimal.readScientific` — reads a plain numeral, `e` or `E` and a power of ten;
* `Decimal.read`, `Decimal.ofText?` — reads either form.
-/
import Estimating.Decimal.Arithmetic

set_option autoImplicit false

namespace Estimating.Decimal

/-! ### Writing -/

/-- The decimal digits of `n`, with no zero in front. -/
def digits (n : Nat) : List Char := Nat.toDigits 10 n

/-- The last `k` decimal digits of `n`, with zeros in front where there are fewer. -/
def lastDigits : Nat → Nat → List Char
  | 0, _ => []
  | k + 1, n => lastDigits k (n / 10) ++ [Nat.digitChar (n % 10)]

@[simp] theorem length_lastDigits (k n : Nat) : (lastDigits k n).length = k := by
  induction k generalizing n with
  | zero => rfl
  | succ k ih => simp [lastDigits, ih]

/-- The digits of `m / 10 ^ s`, with `s` of them after the point. -/
def places (m s : Nat) : List Char :=
  digits (m / 10 ^ s) ++ if s = 0 then [] else '.' :: lastDigits s (m % 10 ^ s)

/-- Digits with the sign in front of them, if it is a minus sign. -/
def signed (negative : Bool) (ds : List Char) : List Char := if negative then '-' :: ds else ds

/-- The written form of a number. -/
def numeral (x : Decimal) : List Char := signed x.negative (places x.size x.scale)

/-- The written form of a number, as text. -/
def text (x : Decimal) : String := String.ofList x.numeral

instance : ToString Decimal := ⟨text⟩

instance : Repr Decimal := ⟨fun x _ => x.text⟩

/-- The written form of a number rounded to `n` fraction digits, also where `n` is more than a
decimal has: zeros follow as long as the digits fit 96 bits.  A zero gets no more than 28 of them. -/
def roundedNumeral (x : Decimal) (n : Nat) : List Char :=
  let r := x.roundTo (min n maxScale)
  let k := if r.isZero then 0 else spareDigits (n - r.scale) r.size
  signed r.negative (places (r.size * 10 ^ k) (r.scale + k))

/-- No written form has more characters than this. -/
def numeralBound : Nat := 32

/-- A number rounded to `n` fraction digits, as text, if that is not too long. -/
def roundedText? (x : Decimal) (n : Nat) : Option String :=
  let cs := x.roundedNumeral n
  if cs.length ≤ numeralBound then some (String.ofList cs) else none

/-! ### Reading -/

/-- Why a text is no numeral. -/
inductive NumeralError
  | /-- It does not have the form of a numeral. -/ malformed
  | /-- Its whole part does not fit. -/ tooManyDigits
  | /-- It fits before rounding only. -/ roundedTooLarge
deriving DecidableEq, Repr

/-- The wording of a numeral error. -/
def NumeralError.message : NumeralError → String
  | .malformed => "Invalid decimal: not a number"
  | .tooManyDigits => "Invalid decimal: overflow from too many digits"
  | .roundedTooLarge => "Invalid decimal: overflow from mantissa after rounding"

/-- The value of a digit character. -/
def digitValue (c : Char) : Nat := c.toNat - '0'.toNat

/-- Ends a numeral at fraction digit `d`, for which there is no room after the coefficient `m` with
scale `s`.  The digit rounds the coefficient; the digits behind it have no effect. -/
def roundOff (m s d : Nat) (rest : List Char) : Except NumeralError (Nat × Nat) :=
  if rest.all (fun c => c.isDigit || c == '_') then
    if d < 5 then .ok (m, s)
    else if m + 1 < coeffBound then .ok (m + 1, s)
    else if s = 0 then .error .roundedTooLarge
    else .ok ((m + 5) / 10, s - 1)
  else .error .malformed

/-- Coefficients up to here are read in one machine word, with room for one more digit. -/
def wordBound : Nat := (2 ^ 64 - 1) / 10 - 255

/-- Reads digits after the coefficient `m`.  `fraction` counts the fraction digits once the point
has been read, `started` tells whether there was a digit, and `resumed` whether an underscore stands
right before.

There is room for 28 fraction digits, and the digit behind the last of them rounds it off.  An
underscore in that place counts as a digit 0 after a coefficient that was read in one word.  After a
longer one it is passed over, and the digit behind it is still taken if it fits. -/
def readDigits (m : Nat) (fraction : Option Nat) (started resumed : Bool) :
    List Char → Except NumeralError (Nat × Nat)
  | [] => if started then .ok (m, fraction.getD 0) else .error .malformed
  | c :: rest =>
    if c == '_' then
      if !started then .error .malformed
      else if maxScale ≤ fraction.getD 0 ∧ m / 10 < wordBound then roundOff m maxScale 0 rest
      else readDigits m fraction started true rest
    else if c == '.' then
      if fraction.isNone then readDigits m (some 0) started false rest else .error .malformed
    else if c.isDigit then
      let m' := 10 * m + digitValue c
      match fraction with
      | none => if m' < coeffBound then readDigits m' none true false rest else .error .tooManyDigits
      | some s =>
        if (s < maxScale ∨ resumed) ∧ m' < coeffBound then
          readDigits m' (some (s + 1)) true false rest
        else roundOff m s (digitValue c) rest
    else .error .malformed

/-- A sign in front of a numeral, and what follows it. -/
def takeSign : List Char → Bool × List Char
  | '-' :: rest => (true, rest)
  | '+' :: rest => (false, rest)
  | rest => (false, rest)

/-- Reads a numeral without an exponent.  Where more than 28 fraction digits were taken, the scale
starts again from zero; a zero loses its sign. -/
def readPlain (cs : List Char) : Except NumeralError Decimal :=
  let (negative, body) := takeSign cs
  match readDigits 0 none false false body with
  | .error e => .error e
  | .ok (m, s) =>
    match ofParts? (if negative then -(m : Int) else m) (s % (maxScale + 1)) with
    | some x => .ok x
    | none => .error .malformed

/-- Reads a natural number below `2 ^ 32`, which may have a plus sign in front. -/
def readCount? (cs : List Char) : Option Nat :=
  let body := match cs with
    | '+' :: rest => rest
    | rest => rest
  if body ≠ [] ∧ body.all Char.isDigit then
    let n := body.foldl (fun n c => 10 * n + digitValue c) 0
    if n < 2 ^ 32 then some n else none
  else none

/-- `x / 10 ^ e`; digits that would stand beyond the last place are rounded away first.  The sign
stays also where all digits go, so the result may be a zero with a sign. -/
def scaleDown? (x : Decimal) (e : Nat) : Option Decimal :=
  if e > maxScale then none
  else if h : x.scale + e ≤ 28 then some { x with scale := x.scale + e, scale_le := h }
  else some { x.cutTo (maxScale - e) with scale := maxScale, scale_le := Nat.le_refl _ }

/-- `x * 10 ^ e`, with no more fraction digits than are needed to keep those of `x`. -/
def scaleUp? (x : Decimal) (e : Nat) : Option Decimal :=
  if e ≤ x.scale then ofParts? x.coeff (x.scale - e)
  else if e > maxScale then none
  else ofParts? (x.coeff * 10 ^ (e - x.scale)) 0

/-- Reads a plain numeral followed by `e` or `E` and an exponent. -/
def readScientific (cs : List Char) : Option Decimal :=
  let isMark := fun c => c == 'e' || c == 'E'
  match readPlain (cs.takeWhile (!isMark ·)), cs.dropWhile (!isMark ·) with
  | .ok x, _ :: '-' :: exponent => (readCount? exponent).bind x.scaleDown?
  | .ok x, _ :: exponent => (readCount? exponent).bind x.scaleUp?
  | _, _ => none

/-- Reads a numeral; the error is that of the plain form. -/
def read (cs : List Char) : Except NumeralError Decimal :=
  match readPlain cs with
  | .ok x => .ok x
  | .error e =>
    match readScientific cs with
    | some x => .ok x
    | none => .error e

/-- The decimal that a text writes, if it writes one. -/
def ofText? (s : String) : Option Decimal := (read s.toList).toOption

end Estimating.Decimal
