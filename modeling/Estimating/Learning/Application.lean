/-
Using a learned factor on a line of a quote.

* `Item.tune` — the line with its quantity before tuning multiplied by the factor of a pattern, if
  the pattern has samples enough.  What an earlier tuning did to the line has no effect.
-/
import Estimating.Learning.Pattern
import Estimating.Quote.Item

set_option autoImplicit false

namespace Estimating.Item

/-- The line under a pattern whose factor is used. -/
def multiply (i : Item) (p : Pattern) (policy : Policy) : Option Item := do
  let factor ← policy.clamp p.factor
  let tuned ← i.setQty (← i.baseQty.mul factor)
  return { tuned with
    tuning := ⟨true, some factor, (policy.confidence p.samples).tier, p.samples⟩ }

/-- The line under what has been learned for it.  There is none where a product is too large for a
decimal. -/
def tune (i : Item) (pattern : Option Pattern) (policy : Policy) : Option Item := do
  let plain ← i.setQty i.baseQty
  match pattern with
  | none => return { plain with tuning := .untuned }
  | some p =>
    if policy.minSamples ≤ p.samples then plain.multiply p policy
    else return { plain with tuning := ⟨false, some p.factor, .low, p.samples⟩ }

end Estimating.Item
