/-
Samples: what one correction says about a rule.

* `changeFactor` — the quotient of the new and the old quantity;
* `Policy.sample` — that quotient, brought between the bounds and to three fraction digits;
* `median` — the value in the middle of a list, or the mean of the two values there.
-/
import Estimating.Learning.Policy

set_option autoImplicit false

namespace Estimating

/-- The quotient of the new and the old quantity.  It is one where there was nothing to
correct, and the outermost decimal of its sign where it is too large for one. -/
def changeFactor (old new : Decimal) : Decimal :=
  if old ≤ .zero then .one
  else
    match new.div old with
    | some factor => factor
    | none => if new < .zero then .smallest else .largest

/-- What a correction counts as; `none` if the bounds are the wrong way round. -/
def Policy.sample (p : Policy) (old new : Decimal) : Option Decimal :=
  (p.clamp (changeFactor old new)).map .roundFactor

/-- The values in increasing order; values that are equal stay in their order. -/
def sorted (values : List Decimal) : List Decimal := values.mergeSort fun a b => decide (a ≤ b)

/-- The mean of two numbers, if their sum is a decimal. -/
def mean (a b : Decimal) : Option Decimal := do (← a.add b).div .two

/-- The median.  There is none of no values, nor where the sum of the two middle values is too large
for a decimal. -/
def median (values : List Decimal) : Option Decimal :=
  let values := sorted values
  let middle := values.length / 2
  if values.length % 2 = 1 then values[middle]?
  else do mean (← values[middle - 1]?) (← values[middle]?)

end Estimating
