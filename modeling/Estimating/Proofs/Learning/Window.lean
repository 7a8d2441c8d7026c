/-
What a pattern knows of the samples that it has been made of.

The first sample makes a pattern by a way of its own, and every further one goes through the window;
both ways lead to the same: the factor is the rounded median of the window, between the bounds.

* `Policy.fault?_eq_none` — what is true of a valid policy;
* `Decimal.roundFactor_clamp_roundFactor` — a factor between the bounds may leave them by rounding,
  but not for long;
* `Pattern.Learned` — the state of a pattern after given samples;
* `Pattern.learned_of_seed`, `Pattern.Learned.extend` — **the first sample, and a further one**.
-/
import Estimating.Proofs.Decimal.Rounding
import Estimating.Proofs.Learning.Observation

set_option autoImplicit false

namespace Estimating

/-! ### Valid policies -/

namespace Policy

/-- What is true of a valid policy. -/
structure Valid (p : Policy) : Prop where
  minFactor_pos : .zero < p.minFactor
  minFactor_le : p.minFactor ≤ .one
  le_maxFactor : .one ≤ p.maxFactor
  windowSize_ne_zero : p.windowSize ≠ 0
  minSamples_le : p.minSamples ≤ p.highSamples
  maxAttempts_ne_zero : p.maxAttempts ≠ 0

theorem fault?_eq_none {p : Policy} (h : p.fault? = none) : p.Valid := by
  unfold fault? at h
  split at h
  · cases h
  · next hbounds =>
      split at h
      · cases h
      · next hwindow =>
          split at h
          · cases h
          · next hthresholds =>
              split at h
              · cases h
              · next hattempts =>
                  simp only [not_or, Decimal.not_le, Decimal.not_lt] at hbounds
                  exact ⟨hbounds.1, hbounds.2.1, hbounds.2.2, hwindow, Nat.not_lt.1 hthresholds,
                    hattempts⟩

variable {p : Policy}

theorem Valid.minFactor_nonneg (h : p.Valid) : .zero ≤ p.minFactor := Int.le_of_lt h.minFactor_pos

/-- The bounds are the right way round. -/
theorem Valid.minFactor_le_maxFactor (h : p.Valid) : p.minFactor ≤ p.maxFactor := by
  rw [Decimal.le_iff_units]
  exact Int.le_trans (Decimal.le_iff_units.1 h.minFactor_le) (Decimal.le_iff_units.1 h.le_maxFactor)

/-- A valid policy clamps every factor. -/
theorem Valid.clamp_eq (h : p.Valid) (x : Decimal) :
    p.clamp x = some (x.clamp p.minFactor p.maxFactor) :=
  if_pos h.minFactor_le_maxFactor

theorem Valid.maxSamples_pos (h : p.Valid) : 1 ≤ p.maxSamples := by
  have := h.windowSize_ne_zero
  unfold maxSamples
  omega

end Policy

/-! ### Bounds and rounding -/

namespace Decimal

theorem lt_asymm {a b : Decimal} (h : a < b) : ¬ b < a := not_lt.2 (Int.le_of_lt h)

/-- Rounding may take a factor past a bound; clamped and rounded once more it stays where it is. -/
theorem roundFactor_clamp_roundFactor {x lo hi : Decimal} (hlo : lo ≤ x) (hhi : x ≤ hi) :
    (x.roundFactor.clamp lo hi).roundFactor = x.roundFactor := by
  have hscale : factorScale ≤ 28 := by decide
  unfold roundFactor clamp
  split
  · next h =>
      -- the bound lies between the number and what it is rounded to
      have hdown := roundTo_mono hlo hscale
      have hup := roundTo_mono (not_lt.1 fun h' => lt_asymm h h') hscale
      rw [roundTo_roundTo x hscale] at hup
      exact roundTo_eq_of_le_of_le hscale hdown hup
  · split
    · next h =>
        have hup := roundTo_mono hhi hscale
        have hdown := roundTo_mono (not_lt.1 fun h' => lt_asymm h h') hscale
        rw [roundTo_roundTo x hscale] at hdown
        exact roundTo_eq_of_le_of_le hscale hdown hup
    · exact roundTo_roundTo x hscale

end Decimal

/-! ### Windows -/

namespace Pattern

/-- The latest of the latest and one more are the latest of all. -/
theorem lastOf_append_singleton {α : Type} (size : Nat) (items : List α) (x : α) :
    lastOf size (lastOf size items ++ [x]) = lastOf size (items ++ [x]) := by
  unfold lastOf
  rw [← List.drop_append_of_le_length (Nat.sub_le _ _), List.drop_drop]
  congr 1
  simp only [List.length_drop, List.length_append, List.length_singleton]
  omega

theorem lastOf_map {α β : Type} (f : α → β) (size : Nat) (items : List α) :
    lastOf size (items.map f) = (lastOf size items).map f := by
  rw [lastOf, lastOf, List.map_drop, List.length_map]

theorem lastOf_singleton {α : Type} {size : Nat} (h : size ≠ 0) (x : α) :
    lastOf size [x] = [x] := by
  have hnone : [x].length - size = 0 := by
    rw [List.length_singleton]
    omega
  rw [lastOf, hnone, List.drop_zero]

theorem lastOf_ne_nil {α : Type} {size : Nat} (h : size ≠ 0) (items : List α) (x : α) :
    lastOf size (items ++ [x]) ≠ [] := by
  intro hnil
  have hlength := congrArg List.length hnil
  simp only [lastOf, List.length_drop, List.length_append, List.length_singleton,
    List.length_nil] at hlength
  omega

theorem median_singleton (x : Decimal) : median [x] = some x := by
  have hsorted : sorted [x] = [x] := List.mergeSort_singleton x
  simp only [median, hsorted]
  simp

/-- The factor of a window that is not empty. -/
theorem factorOf_of_ne_nil (policy : Policy) (old : Decimal) {window : List Decimal}
    (h : window ≠ []) :
    factorOf policy old window = (median window >>= policy.clamp).map .roundFactor := by
  rw [factorOf, if_neg (by simpa using h)]
  cases hmedian : median window with
  | none => rfl
  | some m =>
      show (policy.clamp m >>= fun x => some x.roundFactor) = (policy.clamp m).map _
      cases policy.clamp m <;> rfl

/-! ### Patterns -/

/-- The state of a pattern after the samples given, all of them since it was made. -/
structure Learned (policy : Policy) (samples : List Decimal) (p : Pattern) : Prop where
  version : p.version = samples.length
  count : p.samples = min samples.length policy.maxSamples
  recent : p.recent = lastOf policy.windowSize samples
  factor : (median p.recent >>= policy.clamp).map .roundFactor = some p.factor

variable {q : Sampling} {p next : Pattern} {samples : List Decimal}

/-- **The first sample.** -/
theorem learned_of_seed (hpolicy : q.policy.Valid) {x : Decimal}
    (hsample : q.policy.clamp x = some q.sample) (hnext : q.observe none = some next) :
    Learned q.policy [q.sample.roundFactor] (next.versioned 1) := by
  cases hnext
  have hmax := hpolicy.maxSamples_pos
  rw [hpolicy.clamp_eq, Option.some.injEq] at hsample
  refine ⟨rfl, ?_, (lastOf_singleton hpolicy.windowSize_ne_zero _).symm, ?_⟩
  · show 1 = min 1 _
    omega
  · show (median [q.sample.roundFactor] >>= q.policy.clamp).map _ = some _
    rw [median_singleton]
    show (q.policy.clamp q.sample.roundFactor).map _ = _
    have hlo := Decimal.le_clamp (x := x) hpolicy.minFactor_le_maxFactor
    have hhi := Decimal.clamp_le (x := x) hpolicy.minFactor_le_maxFactor
    rw [hpolicy.clamp_eq, Option.map_some, ← hsample,
      Decimal.roundFactor_clamp_roundFactor hlo hhi]
    exact congrArg some (Decimal.roundTo_roundTo _ (by decide)).symm

/-- **A further sample.** -/
theorem Learned.extend (hpolicy : q.policy.Valid) (h : Learned q.policy samples p)
    (hnext : q.observe (some p) = some next) :
    Learned q.policy (samples ++ [q.sample.roundFactor]) (next.versioned (p.version + 1)) := by
  obtain ⟨factor, hfactor, hnext⟩ := Option.bind_eq_some_iff.1 hnext
  cases hnext
  have hrecent : lastOf q.policy.windowSize (p.recent ++ [q.sample.roundFactor]) =
      lastOf q.policy.windowSize (samples ++ [q.sample.roundFactor]) := by
    rw [h.recent, lastOf_append_singleton]
  refine ⟨?_, ?_, hrecent, ?_⟩
  · show p.version + 1 = _
    rw [h.version, List.length_append]
    rfl
  · show min (p.samples + 1) _ = _
    rw [h.count, List.length_append, List.length_singleton]
    omega
  · show (median (lastOf q.policy.windowSize (p.recent ++ [q.sample.roundFactor])) >>= _).map _ =
      some factor
    rw [← hfactor]
    exact (factorOf_of_ne_nil _ _ (lastOf_ne_nil hpolicy.windowSize_ne_zero _ _)).symm

end Pattern
end Estimating
