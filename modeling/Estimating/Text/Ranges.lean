/-
Sets of characters given by the runs of their code points.

* `Text.Ranges` — a set, as the first and last code point of each run;
* `Text.Ranges.has` — whether a character is in it.
-/

set_option autoImplicit false

namespace Estimating.Text

/-- First and last code points of runs of characters. -/
abbrev Ranges := List (Nat × Nat)

/-- Whether a character is in one of the runs. -/
def Ranges.has (rs : Ranges) (c : Char) : Bool := rs.any fun r => r.1 ≤ c.toNat && c.toNat ≤ r.2

theorem Ranges.has_iff {rs : Ranges} {c : Char} :
    rs.has c ↔ ∃ r ∈ rs, r.1 ≤ c.toNat ∧ c.toNat ≤ r.2 := by
  simp [Ranges.has]

end Estimating.Text
