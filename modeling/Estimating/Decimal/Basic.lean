/-
Decimal numbers: a sign and a whole number of digits over a power of ten.

Quantities, prices and factors are all of this one type.  A number keeps the count of fraction
digits it was written with, its *scale*, so `1.50` and `1.5` are two decimals with one value.

* `Decimal` — a sign, a size below `2 ^ 96` and a scale of at most 28, both bounds held by the type.
  Its `Decimal.coeff` is the size with the sign;
* `Decimal.ofCoeff`, `Decimal.ofParts?` — the decimal with a given coefficient and scale.  A zero
  has no sign there; a zero with one can only be read (`Decimal.scaleDown?`), and it is written with
  its sign but counts as zero everywhere else;
* `Decimal.toRat` — the value, an exact rational;
* the order `≤` and `<`, which compares values and is decided by cross-multiplication
  (`Decimal.le_iff`, `Decimal.lt_iff`);
* `Decimal.smaller`, `Decimal.larger`, `Decimal.clamp` — selections, which hand back one of their
  operands with its scale untouched;
* `Decimal.floor`, `Decimal.ceil` — the neighbouring whole numbers.
-/

set_option autoImplicit false

namespace Estimating

/-- Throughout the library `n ^ k` is the power of the core library, also where algebraic structures
bring powers of their own. -/
@[default_instance 100000]
instance (priority := 1100) natPower {α : Type} [NatPow α] : Pow α Nat := instPowNat

/-- A decimal number `± size / 10 ^ scale`. -/
structure Decimal where
  /-- Whether a minus sign stands in front. -/
  negative : Bool
  /-- The digits, read as one whole number. -/
  size : Nat
  /-- How many of the digits stand after the point. -/
  scale : Nat
  /-- The digits fit 96 bits. -/
  size_lt : size < 2 ^ 96
  /-- At most 28 digits stand after the point. -/
  scale_le : scale ≤ 28
deriving DecidableEq

namespace Decimal

/-- The bound that all sizes lie below. -/
def coeffBound : Nat := 2 ^ 96

/-- The largest scale. -/
def maxScale : Nat := 28

/-! ### Construction -/

/-- The digits of a number, read as one whole number with the sign. -/
def coeff (x : Decimal) : Int := if x.negative then -x.size else x.size

@[simp] theorem natAbs_coeff (x : Decimal) : x.coeff.natAbs = x.size := by
  unfold coeff
  split <;> simp

theorem coeff_lt (x : Decimal) : x.coeff.natAbs < 2 ^ 96 := x.natAbs_coeff ▸ x.size_lt

/-- The decimal with the given coefficient and scale. -/
def ofCoeff (c : Int) (s : Nat) (hc : c.natAbs < 2 ^ 96) (hs : s ≤ 28) : Decimal :=
  ⟨decide (c < 0), c.natAbs, s, hc, hs⟩

@[simp] theorem coeff_ofCoeff {c : Int} {s : Nat} (hc : c.natAbs < 2 ^ 96) (hs : s ≤ 28) :
    (ofCoeff c s hc hs).coeff = c := by
  unfold coeff ofCoeff
  by_cases h : c < 0
  · rw [if_pos (decide_eq_true h), Int.ofNat_natAbs_of_nonpos (Int.le_of_lt h), Int.neg_neg]
  · rw [if_neg (by simpa using h), Int.natAbs_of_nonneg (Int.not_lt.1 h)]

@[simp] theorem scale_ofCoeff {c : Int} {s : Nat} (hc : c.natAbs < 2 ^ 96) (hs : s ≤ 28) :
    (ofCoeff c s hc hs).scale = s := rfl

/-- The decimal with the given coefficient and scale, if both are within bounds. -/
def ofParts? (c : Int) (s : Nat) : Option Decimal :=
  if h : c.natAbs < 2 ^ 96 ∧ s ≤ 28 then some (ofCoeff c s h.1 h.2) else none

theorem ofParts?_eq_some {c : Int} {s : Nat} {x : Decimal} (h : ofParts? c s = some x) :
    x.coeff = c ∧ x.scale = s := by
  unfold ofParts? at h
  split at h
  · cases h; exact ⟨coeff_ofCoeff _ _, rfl⟩
  · cases h

theorem ofParts?_isSome {c : Int} {s : Nat} :
    (ofParts? c s).isSome ↔ c.natAbs < 2 ^ 96 ∧ s ≤ 28 := by
  unfold ofParts?
  split
  · exact ⟨fun _ => ‹_›, fun _ => rfl⟩
  · exact ⟨nofun, fun h => absurd h ‹_›⟩

/-- `n / 10 ^ scale`, written with `scale` digits after the point. -/
def ofBits (n : BitVec 96) (scale : Nat) (h : scale ≤ 28) : Decimal :=
  ⟨false, n.toNat, scale, n.isLt, h⟩

/-- A whole number, written without a point. -/
def whole (n : BitVec 96) : Decimal := ofBits n 0 (by decide)

/-- A number of tenths, written with one digit after the point. -/
def tenths (n : BitVec 96) : Decimal := ofBits n 1 (by decide)

/-- A number of hundredths, written with two digits after the point. -/
def hundredths (n : BitVec 96) : Decimal := ofBits n 2 (by decide)

/-- Nothing, with no digit after the point. -/
def zero : Decimal := whole 0
/-- One, with no digit after the point. -/
def one : Decimal := whole 1
/-- Two, with no digit after the point. -/
def two : Decimal := whole 2
/-- A hundred, with no digit after the point. -/
def hundred : Decimal := whole 100

/-- The largest decimal. -/
def largest : Decimal := whole (.allOnes 96)

instance : Inhabited Decimal := ⟨zero⟩

/-- Whether the value is zero, whatever the scale and the sign. -/
def isZero (x : Decimal) : Bool := x.size == 0

/-- The number with its sign turned, at the same scale; a zero stays as it is. -/
def neg (x : Decimal) : Decimal := if x.isZero then x else { x with negative := !x.negative }

@[simp] theorem coeff_neg (x : Decimal) : x.neg.coeff = -x.coeff := by
  unfold neg isZero coeff
  cases x.negative <;> split <;> simp_all

/-- The size of a number, at the same scale. -/
def abs (x : Decimal) : Decimal := { x with negative := false }

@[simp] theorem coeff_abs (x : Decimal) : x.abs.coeff = x.coeff.natAbs := by
  rw [natAbs_coeff]
  rfl

/-- The smallest decimal. -/
def smallest : Decimal := largest.neg

/-! ### Value and order -/

/-- The value of a decimal. -/
def toRat (x : Decimal) : Rat := mkRat x.coeff (10 ^ x.scale)

/-- One number is at most another when its value is, whatever their scales. -/
instance : LE Decimal := ⟨fun a b => a.coeff * 10 ^ b.scale ≤ b.coeff * 10 ^ a.scale⟩

/-- One number is below another when its value is, whatever their scales. -/
instance : LT Decimal := ⟨fun a b => a.coeff * 10 ^ b.scale < b.coeff * 10 ^ a.scale⟩

theorem le_iff {a b : Decimal} : a ≤ b ↔ a.coeff * 10 ^ b.scale ≤ b.coeff * 10 ^ a.scale := Iff.rfl

theorem lt_iff {a b : Decimal} : a < b ↔ a.coeff * 10 ^ b.scale < b.coeff * 10 ^ a.scale := Iff.rfl

instance : DecidableLE Decimal := fun a b =>
  inferInstanceAs (Decidable (a.coeff * 10 ^ b.scale ≤ b.coeff * 10 ^ a.scale))

instance : DecidableLT Decimal := fun a b =>
  inferInstanceAs (Decidable (a.coeff * 10 ^ b.scale < b.coeff * 10 ^ a.scale))

theorem not_le {a b : Decimal} : ¬ a ≤ b ↔ b < a := Int.not_le

theorem not_lt {a b : Decimal} : ¬ a < b ↔ b ≤ a := Int.not_lt

theorem le_total (a b : Decimal) : a ≤ b ∨ b ≤ a := Int.le_total _ _

/-- Whether two numbers have one value, whatever their scales. -/
def sameValue (a b : Decimal) : Bool := a.coeff * 10 ^ b.scale == b.coeff * 10 ^ a.scale

/-! ### Selections -/

/-- The smaller of two numbers; of two with one value, the first. -/
def smaller (a b : Decimal) : Decimal := if b < a then b else a

/-- The larger of two numbers; of two with one value, the first. -/
def larger (a b : Decimal) : Decimal := if a < b then b else a

/-- The number itself where it lies between the bounds, else the bound that it passes. -/
def clamp (x lo hi : Decimal) : Decimal := if x < lo then lo else if hi < x then hi else x

theorem clamp_eq (x lo hi : Decimal) :
    x.clamp lo hi = lo ∨ x.clamp lo hi = hi ∨ x.clamp lo hi = x := by
  unfold clamp
  split
  · exact .inl rfl
  · split
    · exact .inr (.inl rfl)
    · exact .inr (.inr rfl)

/-- A clamped number is never above the upper bound, if the bounds are in order. -/
theorem clamp_le {x lo hi : Decimal} (h : lo ≤ hi) : x.clamp lo hi ≤ hi := by
  unfold clamp
  split
  · exact h
  · split
    · exact Int.le_refl _
    · exact not_lt.1 ‹_›

/-- A clamped number is never below the lower bound, if the bounds are in order. -/
theorem le_clamp {x lo hi : Decimal} (h : lo ≤ hi) : lo ≤ x.clamp lo hi := by
  unfold clamp
  split
  · exact Int.le_refl _
  · split
    · exact h
    · exact not_lt.1 ‹_›

/-! ### Whole neighbours -/

/-- The largest whole number that is not above `x`. -/
def floor (x : Decimal) : Decimal :=
  ofCoeff (x.coeff / (10 ^ x.scale : Nat)) 0
    (Nat.lt_of_le_of_lt (Int.natAbs_ediv_le_natAbs _ _) x.coeff_lt) (Nat.zero_le _)

/-- The smallest whole number that is not below `x`. -/
def ceil (x : Decimal) : Decimal := x.neg.floor.neg

end Decimal
end Estimating
