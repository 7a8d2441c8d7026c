/-
Learned patterns.

* `Pattern` — what a tenant's corrections of one item under one rule have taught: the latest
  samples, their median, and how many there were;
* `Pattern.seed` — the pattern of a first sample;
* `Pattern.extend` — a pattern with one more sample;
* `Pattern.next` — one of the two.
-/
import Estimating.Learning.Sample
import Estimating.Owned
import Estimating.Project.Key
import Estimating.Timestamp

set_option autoImplicit false

namespace Estimating

/-- What corrections of one item under one rule have taught. -/
structure Pattern where
  tenant : TenantId
  key : PatternKey
  /-- The median of the recent samples. -/
  factor : Decimal
  /-- How many samples there were; no longer counted beyond the window. -/
  samples : Nat
  /-- The samples of the window, the oldest first. -/
  recent : List Decimal
  /-- How often the pattern has been written. -/
  version : Nat
  createdAt : Timestamp
  updatedAt : Timestamp
deriving DecidableEq, Repr

namespace Pattern

/-- Where a pattern is kept. -/
def place (p : Pattern) : Owned PatternKey := ⟨p.tenant, p.key⟩

/-- The pattern of a first sample. -/
def seed (tenant : TenantId) (key : PatternKey) (sample : Decimal) (now : Timestamp) : Pattern :=
  ⟨tenant, key, sample.roundFactor, 1, [sample], 0, now, now⟩

/-- The last `size` entries of a list. -/
def lastOf {α : Type} (size : Nat) (items : List α) : List α := items.drop (items.length - size)

/-- The factor of a window of samples, `old` if the window is empty; `none` if it is too large. -/
def factorOf (policy : Policy) (old : Decimal) (window : List Decimal) : Option Decimal :=
  if window.isEmpty then some old
  else do return (← policy.clamp (← median window)).roundFactor

/-- The pattern with one more sample. -/
def extend (p : Pattern) (sample : Decimal) (policy : Policy) (now : Timestamp) :
    Option Pattern := do
  let recent := lastOf policy.windowSize (p.recent ++ [sample])
  let factor ← factorOf policy p.factor recent
  return { p with
    factor, recent, samples := min (p.samples + 1) policy.maxSamples, updatedAt := now }

/-- The pattern after one more sample, the first or a further one. -/
def next (current : Option Pattern) (tenant : TenantId) (key : PatternKey) (sample : Decimal)
    (policy : Policy) (now : Timestamp) : Option Pattern :=
  match current with
  | none => some (.seed tenant key sample.roundFactor now)
  | some p => p.extend sample.roundFactor policy now

/-- A pattern as JSON. -/
def toJson (p : Pattern) : Json :=
  .object (
    Json.member "tenant" (.string p.tenant) ++
    Json.member "key" p.key.toJson ++
    Json.member "factor" p.factor.toJson ++
    Json.member "sample_count" (Json.ofCount p.samples) ++
    Json.member "recent_factors" (Json.ofList Decimal.toJson p.recent) ++
    Json.member "version" (Json.ofCount p.version) ++
    Json.member "created_at" p.createdAt.toJson ++
    Json.member "last_updated" p.updatedAt.toJson)

/-- The pattern that a JSON record gives. -/
def ofJson? : Json → Option Pattern := Json.record? do
  let tenant ← Json.required "tenant" Json.text?
  let key ← Json.required "key" PatternKey.ofJson?
  let factor ← Json.required "factor" Decimal.ofJson?
  let samples ← Json.required "sample_count" Json.count32?
  let recent ← Json.required "recent_factors" (Json.list? Decimal.ofJson?)
  let version ← Json.required "version" Json.count64?
  let createdAt ← Json.required "created_at" Timestamp.ofJson?
  let updatedAt ← Json.required "last_updated" Timestamp.ofJson?
  return ⟨tenant, key, factor, samples, recent, version, createdAt, updatedAt⟩

end Pattern
end Estimating
