/-
How corrections become factors, and when factors are used.

* `Policy` — bounds on factors, the window of samples that count, and the thresholds of confidence;
* `Policy.fault?` — what is wrong with a policy, if anything;
* `Policy.clamp` — a factor brought between the bounds;
* `Policy.maxSamples` — the number at which samples are no longer counted.
-/
import Estimating.Learning.Confidence

set_option autoImplicit false

namespace Estimating

/-- How corrections become factors, and when factors are used. -/
structure Policy where
  minFactor : Decimal
  maxFactor : Decimal
  /-- How many of the latest samples count. -/
  windowSize : Nat
  /-- How many samples a factor needs before it is used. -/
  minSamples : Nat
  /-- How many samples make confidence high. -/
  highSamples : Nat
  /-- How often a write is tried when other writers come in between. -/
  maxAttempts : Nat
deriving DecidableEq, Repr

/-- What is wrong with a policy. -/
inductive PolicyFault
  | bounds (minFactor maxFactor : Decimal)
  | noWindow
  | thresholds (highSamples minSamples : Nat)
  | noAttempt
deriving DecidableEq, Repr

/-- The wording of a policy fault. -/
def PolicyFault.message : PolicyFault → String
  | bounds lo hi =>
    "factor bounds must satisfy 0 < min <= 1 <= max, got [" ++ lo.text ++ ", " ++ hi.text ++ "]"
  | noWindow => "window_size must be at least 1"
  | thresholds high low =>
    "high_confidence_samples (" ++ toString high ++ ") must not be below min_samples (" ++
      toString low ++ ")"
  | noAttempt => "max_upsert_attempts must be at least 1"

namespace Policy

/-- The policy in force unless another is set. -/
def standard : Policy where
  minFactor := .tenths 8
  maxFactor := .tenths 12
  windowSize := 50
  minSamples := Confidence.standardMedium
  highSamples := Confidence.standardHigh
  maxAttempts := 5

/-- What is wrong with a policy, if anything. -/
def fault? (p : Policy) : Option PolicyFault :=
  if p.minFactor ≤ .zero ∨ .one < p.minFactor ∨ p.maxFactor < .one then
    some (.bounds p.minFactor p.maxFactor)
  else if p.windowSize = 0 then some .noWindow
  else if p.highSamples < p.minSamples then some (.thresholds p.highSamples p.minSamples)
  else if p.maxAttempts = 0 then some .noAttempt
  else none

/-- A factor brought between the bounds; `none` if the bounds are the wrong way round. -/
def clamp (p : Policy) (factor : Decimal) : Option Decimal :=
  if p.minFactor ≤ p.maxFactor then some (factor.clamp p.minFactor p.maxFactor) else none

/-- The confidence of so many samples. -/
def confidence (p : Policy) (samples : Nat) : Confidence :=
  .ofThresholds samples p.minSamples p.highSamples

/-- The number at which samples are no longer counted: the window, or the largest number of 32
bits. -/
def maxSamples (p : Policy) : Nat := min p.windowSize (2 ^ 32 - 1)

/-- A policy as JSON. -/
def toJson (p : Policy) : Json :=
  .object (
    Json.member "min_factor" p.minFactor.toJson ++
    Json.member "max_factor" p.maxFactor.toJson ++
    Json.member "window_size" (Json.ofCount p.windowSize) ++
    Json.member "min_samples" (Json.ofCount p.minSamples) ++
    Json.member "high_confidence_samples" (Json.ofCount p.highSamples) ++
    Json.member "max_upsert_attempts" (Json.ofCount p.maxAttempts))

/-- Reads a policy out of a JSON record; every field has its standard value where it is absent. -/
def read (s : Json.Reading) : Json → Option Policy := s.record? do
  let minFactor ← Json.withDefault "min_factor" s.decimal? standard.minFactor
  let maxFactor ← Json.withDefault "max_factor" s.decimal? standard.maxFactor
  let windowSize ← Json.withDefault "window_size" s.count64? standard.windowSize
  let minSamples ← Json.withDefault "min_samples" s.count32? standard.minSamples
  let highSamples ← Json.withDefault "high_confidence_samples" s.count32? standard.highSamples
  let maxAttempts ← Json.withDefault "max_upsert_attempts" s.count32? standard.maxAttempts
  return ⟨minFactor, maxFactor, windowSize, minSamples, highSamples, maxAttempts⟩

/-- The policy that a JSON record gives. -/
def ofJson? : Json → Option Policy := read .strict

end Policy
end Estimating
