/-
How far a learned factor can be trusted.

Trust grows with the number of samples behind a factor.  It is shown in three ways: as a *tier*,
which decides whether the factor is used, as a *score* for display, and as a *state* in the life of
a pattern.

* `Tier`, `Confidence.tier` — low, medium or high;
* `Confidence.score` — 0.70 at one sample, 0.05 more for each further one, at most 0.95;
* `PatternStage`, `PatternStage.ofSamples` — absent, seeded, learning or confident.
-/
import Estimating.Decimal.Arithmetic
import Estimating.Json.Record

set_option autoImplicit false

namespace Estimating

/-! ### Tiers -/

/-- How far a factor can be trusted. -/
inductive Tier
  | low
  | medium
  | high
deriving DecidableEq, Repr

namespace Tier

/-- The name of a tier. -/
def name : Tier → String
  | low => "low"
  | medium => "medium"
  | high => "high"

/-- The tier of a name. -/
def ofName? : String → Option Tier
  | "low" => some low
  | "medium" => some medium
  | "high" => some high
  | _ => none

/-- The place in the order of tiers. -/
def rank : Tier → Nat
  | low => 0
  | medium => 1
  | high => 2

theorem ofName?_name (t : Tier) : ofName? t.name = some t := by cases t <;> rfl

/-- A tier as JSON. -/
def toJson (t : Tier) : Json := .string t.name

/-- The tier that a JSON constant names. -/
def ofJson? (j : Json) : Option Tier := (Json.name? j).bind ofName?

end Tier

/-! ### Confidence -/

/-- A number of samples beside the numbers at which tiers are reached. -/
structure Confidence where
  samples : Nat
  mediumAt : Nat
  highAt : Nat
deriving DecidableEq, Repr

namespace Confidence

/-- Samples that reach the medium tier unless set otherwise. -/
def standardMedium : Nat := 3

/-- Samples that reach the high tier unless set otherwise. -/
def standardHigh : Nat := 10

/-- Confidence under the given thresholds; the high tier is never reached before the medium one. -/
def ofThresholds (samples mediumAt highAt : Nat) : Confidence :=
  ⟨samples, mediumAt, max highAt mediumAt⟩

/-- The tier. -/
def tier (c : Confidence) : Tier :=
  if c.highAt ≤ c.samples then .high
  else if c.mediumAt ≤ c.samples then .medium
  else .low

/-- The score of a number of samples in hundredths. -/
def hundredths (samples : Nat) : Nat := if samples = 0 then 0 else min (65 + 5 * samples) 95

theorem hundredths_le (n : Nat) : hundredths n ≤ 95 := by
  unfold hundredths
  split <;> omega

/-- The score; no samples score a plain zero. -/
def score (c : Confidence) : Decimal :=
  if c.samples = 0 then .zero
  else
    .hundredths (.ofNatLT (hundredths c.samples) (Nat.lt_of_le_of_lt (hundredths_le _) (by decide)))

end Confidence

/-! ### States -/

/-- A stage in the life of a pattern. -/
inductive PatternStage
  | absent
  | seeded
  | learning
  | confident
deriving DecidableEq, Repr

namespace PatternStage

/-- The name of a state. -/
def name : PatternStage → String
  | absent => "absent"
  | seeded => "seeded"
  | learning => "learning"
  | confident => "confident"

/-- The state of a name. -/
def ofName? : String → Option PatternStage
  | "absent" => some absent
  | "seeded" => some seeded
  | "learning" => some learning
  | "confident" => some confident
  | _ => none

/-- The place in the order of states. -/
def rank : PatternStage → Nat
  | absent => 0
  | seeded => 1
  | learning => 2
  | confident => 3

theorem ofName?_name (s : PatternStage) : ofName? s.name = some s := by cases s <;> rfl

/-- The state of a pattern with so many samples: one sample seeds it, `highAt` make it confident. -/
def ofSamples (samples highAt : Nat) : PatternStage :=
  if samples = 0 then absent
  else if samples = 1 then seeded
  else if samples < highAt then learning
  else confident

/-- A state as JSON. -/
def toJson (s : PatternStage) : Json := .string s.name

/-- The state that a JSON constant names. -/
def ofJson? (j : Json) : Option PatternStage := (Json.name? j).bind ofName?

end PatternStage
end Estimating
